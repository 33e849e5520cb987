import Soapy.Lib.Program
import Soapy.Remote.Packer

/-! # SoapyRPCUnpacker

The decoders reach the message through three primitive readers: `unpack(void)`
and `peekType`, which index `_message` directly, and `unpack(length)`, which
checks the length first. They are programs over these instructions, so the
bounds of a read can be studied once for all decoders.

`_message` is a pointer: the memory behind the received bytes exists, but what
it holds is not known. `size_t` is 64 bits wide and its arithmetic wraps.
-/

namespace Soapy.Remote

open Lib

structure Unpacker where
  /-- The memory from `_message` on; the received bytes are the first `capacity`. -/
  message : Nat → UInt8
  offset : Nat
  capacity : Nat
  remoteRPCVersion : UInt32

inductive ReadInstr where
  /-- `char unpack(void)`. -/
  | byte
  /-- `peekType`. -/
  | peek
  /-- `void *unpack(const size_t length)` with the copy out of it that follows at
      every call site: the `memcpy` of a word, or the constructor of a string. -/
  | blob (length : UInt64)

def ReadInstr.Answer : ReadInstr → Type
  | .byte | .peek => UInt8
  | .blob _ => Bytes

abbrev Unpack := Program ReadInstr ReadInstr.Answer Exn

namespace Unpacker

/-- `_capacity - sizeof(SoapyRPCTrailer)`. -/
def limit (u : Unpacker) : Nat := (u.capacity + 2 ^ 64 - trailerSize) % 2 ^ 64

def slice (u : Unpacker) (offset length : Nat) : Bytes :=
  (List.range length).map (fun i => u.message (offset + i))

/-- The length check wraps. A length above `max_size()` of a string, which only a
    negative size gives, makes the constructor throw after the offset has moved. -/
def exec : Program.Machine ReadInstr ReadInstr.Answer Exn Unpacker
  | .byte, u => (.ok (u.message u.offset), { u with offset := (u.offset + 1) % 2 ^ 64 })
  | .peek, u => (.ok (u.message u.offset), u)
  | .blob length, u =>
    if u.limit < (u.offset + length.toNat) % 2 ^ 64 then
      (.error (.runtimeError (ascii "SoapyRPCUnpacker::unpack() OVER-CONSUME")), u)
    else if 2 ^ 63 ≤ length.toNat then
      (.error (.runtimeError (ascii "basic_string::_M_create")),
        { u with offset := (u.offset + length.toNat) % 2 ^ 64 })
    else
      (.ok (u.slice u.offset length.toNat),
        { u with offset := (u.offset + length.toNat) % 2 ^ 64 })

def done (u : Unpacker) : Bool := (u.offset + trailerSize) % 2 ^ 64 = u.capacity

end Unpacker

namespace Unpack

def byte : Unpack UInt8 := Program.call ReadInstr.byte

def peekType : Unpack UInt8 := Program.call ReadInstr.peek

def blob (length : UInt64) : Unpack Bytes := Program.call (ReadInstr.blob length)

/-- `throw std::runtime_error(text)`. -/
def throwText {α : Type} (text : String) : Unpack α :=
  Program.fail (Exn.runtimeError (ascii text))

/-- `UNPACK_TYPE_HELPER(expected)`; `name` is what the macro stringizes. -/
def typeCheck (expected : RemoteTypes) (name : String) : Unpack Unit := do
  let type ← byte
  if type = expected.code then pure ()
  else throwText ("SoapyRPCUnpacker type check FAIL:" ++ name)

def type : Unpack UInt8 := byte

def char : Unpack Int8 := do
  typeCheck .CHAR "SOAPY_REMOTE_CHAR"
  return (← byte).toInt8

def bool : Unpack Bool := do
  typeCheck .BOOL "SOAPY_REMOTE_BOOL"
  return (← byte) ≠ 0

def int : Unpack Int32 := do
  typeCheck .INT32 "SOAPY_REMOTE_INT32"
  return Int32.ofBitVec (BitVec.ofNat 32 (ofBE (← blob 4)))

def longLong : Unpack Int64 := do
  typeCheck .INT64 "SOAPY_REMOTE_INT64"
  return Int64.ofBitVec (BitVec.ofNat 64 (ofBE (← blob 8)))

def call : Unpack CallCode := do
  typeCheck .CALL "SOAPY_REMOTE_CALL"
  return CallCode.ofInt (← int)

def double : Unpack Double := do
  typeCheck .FLOAT64 "SOAPY_REMOTE_FLOAT64"
  let exp ← int
  let man ← longLong
  return Double.ldexp (Double.ofInt man.toInt) (exp.toInt - 53)

def complex : Unpack Complex128 := do
  typeCheck .COMPLEX128 "SOAPY_REMOTE_COMPLEX128"
  let r ← double
  let i ← double
  return ⟨r, i⟩

/-- The conversion of a size received as an int to `size_t`. -/
def toSize (size : Int32) : UInt64 := UInt64.ofNat (size.toInt % 2 ^ 64).toNat

def string : Unpack Bytes := do
  typeCheck .STRING "SOAPY_REMOTE_STRING"
  let size ← int
  blob (toSize size)

def many {α : Type} (p : Unpack α) : Nat → Unpack (List α)
  | 0 => pure []
  | n + 1 => do
    let a ← p
    let rest ← many p n
    return a :: rest

/-- The list overloads. `value.resize(size)` throws on a negative size. -/
def list {α : Type} (t : RemoteTypes) (name : String) (p : Unpack α) : Unpack (List α) := do
  typeCheck t name
  let size ← int
  if size < 0 then throwText "vector::_M_default_append"
  else many p (toSize size).toNat

def stringList : Unpack (List Bytes) := list .STRING_LIST "SOAPY_REMOTE_STRING_LIST" string

def doubleList : Unpack (List Double) := list .FLOAT64_LIST "SOAPY_REMOTE_FLOAT64_LIST" double

/-- `value[key] = val` for each pair received. -/
def pairs : Nat → Kwargs → Unpack Kwargs
  | 0, value => pure value
  | n + 1, value => do
    let key ← string
    let val ← string
    pairs n (value.insert key val)

/-- A map is not resized, so a negative size is only a very large loop bound. -/
def kwargs : Unpack Kwargs := do
  typeCheck .KWARGS "SOAPY_REMOTE_KWARGS"
  let size ← int
  pairs (toSize size).toNat .empty

def kwargsList : Unpack (List Kwargs) := list .KWARGS_LIST "SOAPY_REMOTE_KWARGS_LIST" kwargs

def sizeList : Unpack (List UInt64) :=
  list .SIZE_LIST "SOAPY_REMOTE_SIZE_LIST" (do return toSize (← int))

section Versioned

variable (remoteRPCVersion : UInt32)

def range : Unpack Range := do
  typeCheck .RANGE "SOAPY_REMOTE_RANGE"
  let minimum ← double
  let maximum ← double
  let step ← if SoapyRPCVersion ≤ remoteRPCVersion then double else pure .zero
  return ⟨minimum, maximum, step⟩

def rangeList : Unpack (List Range) :=
  list .RANGE_LIST "SOAPY_REMOTE_RANGE_LIST" (range remoteRPCVersion)

def argInfo : Unpack ArgInfo := do
  typeCheck .ARG_INFO "SOAPY_REMOTE_ARG_INFO"
  let key ← string
  let value ← string
  let name ← string
  let description ← string
  let units ← string
  let intType ← int
  let range ← range remoteRPCVersion
  let options ← stringList
  let optionNames ← stringList
  return ⟨key, value, name, description, units, ArgType.ofInt intType, range, options, optionNames⟩

def argInfoList : Unpack (List ArgInfo) :=
  list .ARG_INFO_LIST "SOAPY_REMOTE_ARG_INFO_LIST" (argInfo remoteRPCVersion)

end Versioned

/-- The end of `recv`: consume a leading VOID, or turn an exception into a throw. -/
def recvTail : Unpack Unit := do
  if (← peekType) = RemoteTypes.VOID.code then
    let _ ← type
  else if (← peekType) = RemoteTypes.EXCEPTION.code then
    let _ ← type
    let errorMsg ← string
    Program.fail (Exn.runtimeError (ascii "RemoteError: " ++ errorMsg))

end Unpack

section Primitives

variable (u : Unpacker)

theorem run_byte : Program.run Unpacker.exec Unpack.byte u =
    (.ok (u.message u.offset), { u with offset := (u.offset + 1) % 2 ^ 64 }) :=
  Program.run_call _ ReadInstr.byte u

theorem run_peekType : Program.run Unpacker.exec Unpack.peekType u =
    (.ok (u.message u.offset), u) :=
  Program.run_call _ ReadInstr.peek u

theorem run_blob (length : UInt64) : Program.run Unpacker.exec (Unpack.blob length) u =
    if u.limit < (u.offset + length.toNat) % 2 ^ 64 then
      (.error (.runtimeError (ascii "SoapyRPCUnpacker::unpack() OVER-CONSUME")), u)
    else if 2 ^ 63 ≤ length.toNat then
      (.error (.runtimeError (ascii "basic_string::_M_create")),
        { u with offset := (u.offset + length.toNat) % 2 ^ 64 })
    else (.ok (u.slice u.offset length.toNat), { u with offset := (u.offset + length.toNat) % 2 ^ 64 }) :=
  Program.run_call _ (ReadInstr.blob length) u

end Primitives

/-- What the receiving side of a connection does: how much each `recv` call
    yields, the last error text, and what the heap holds behind a message. -/
structure Link where
  grants : Grants
  lastErrorMsg : Bytes
  heap : Nat → UInt8

/-- The payload loop of `recv`: the bytes received, and what stays in the stream. A `recv` call
    yields between one byte and what was asked for; at the end of the stream it yields nothing for
    ever. -/
def recvLoop (link : Link) : Nat → Bytes → Nat → Option (Except Exn Bytes × Bytes)
  | _, stream, 0 => some (.ok [], stream)
  | 0, _, _ + 1 => none
  | fuel + 1, stream, need + 1 =>
    match link.grants (need + 1) with
    | none => some (.error (.runtimeError
        (ascii "SoapyRPCUnpacker::recv(payload) FAIL: " ++ link.lastErrorMsg)), stream)
    | some n =>
      let toRecv := min socketBuffMax (need + 1)
      let ret := min (max 1 (min n toRecv)) stream.length
      if ret = 0 then none
      else
        match recvLoop link fuel (stream.drop ret) (need + 1 - ret) with
        | some (.ok received, rest) => some (.ok (stream.take ret ++ received), rest)
        | other => other

/-- `recv` up to the trailer check, on the bytes that arrive before the peer
    closes: the unpacker it fills in, and the bytes left in the stream. -/
def recvMessage (link : Link) (stream : Bytes) : Option (Except Exn Unpacker × Bytes) :=
  let header := stream.take headerSize
  let stream := stream.drop headerSize
  if header.length ≠ headerSize then
    some (.error (.runtimeError
      (ascii "SoapyRPCUnpacker::recv(header) FAIL: " ++ link.lastErrorMsg)), stream)
  else if ofBE (header.take 4) ≠ SoapyRPCHeaderWord.toNat then
    some (.error (.runtimeError (ascii "SoapyRPCUnpacker::recv() FAIL: header word")), stream)
  else
    let version := UInt32.ofNat (ofBE ((header.drop 4).take 4))
    let length := ofBE (header.drop 8)
    if length ≤ headerSize + trailerSize then
      some (.error (.runtimeError (ascii "SoapyRPCUnpacker::recv() FAIL: header length")), stream)
    else
      let capacity := length - headerSize
      match recvLoop link capacity stream capacity with
      | none => none
      | some (.error e, rest) => some (.error e, rest)
      | some (.ok message, rest) =>
        if ofBE (message.drop (capacity - trailerSize)) ≠ SoapyRPCTrailerWord.toNat then
          some (.error (.runtimeError (ascii "SoapyRPCUnpacker::recv() FAIL: trailer word")), rest)
        else
          some (.ok ⟨fun i => message.getD i (link.heap i), 0, capacity, version⟩, rest)

/-- `SoapyRPCUnpacker::recv`. -/
def recv (link : Link) (stream : Bytes) : Option (Except Exn Unpacker × Bytes) :=
  match recvMessage link stream with
  | some (.ok u, rest) =>
    match Program.run Unpacker.exec Unpack.recvTail u with
    | (.ok _, u') => some (.ok u', rest)
    | (.error e, _) => some (.error e, rest)
  | other => other

end Soapy.Remote
