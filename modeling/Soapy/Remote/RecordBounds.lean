import Soapy.Remote.StreamRecords

/-! # Bounds of received records

Whatever arrives on the stream socket, `acquireRecv` believes the header: how long the record is,
and how many elements are in it. Here is what it stores, whether it returns or not, and when the
elements that it reports are in what it received.
-/

namespace Soapy.Remote

open Lib

def streamBytes : Arrivals → Bytes
  | [] => []
  | none :: _ => []
  | some found :: rest => if found.isEmpty then [] else found ++ streamBytes rest

namespace Endpoint

/-- Offset and length of what the loop of `acquireRecv` stores. -/
def restStored (bytes : Nat) : Nat → Nat → Arrivals → List (Nat × Nat)
  | fuel, bytesRecvd, arrivals =>
    if bytes ≤ bytesRecvd then []
    else
      match fuel with
      | 0 => []
      | fuel + 1 =>
        match recvSome false (min socketBuffMax (bytes - bytesRecvd)) arrivals with
        | none | some (none, _) => []
        | some (some found, rest) =>
          if found.isEmpty then []
          else
            (bytesRecvd, found.length) ::
              restStored bytes fuel (bytesRecvd + found.length) rest

/-- The first `recv` call of `acquireRecv`. -/
def firstRecv (e : Endpoint) (arrivals : Arrivals) : Option (Option Bytes × Arrivals) :=
  if e.config.datagramMode then recvSome true e.config.recvLength arrivals
  else recvAll streamHeaderSize arrivals

def nextHeader (e : Endpoint) (bs : Bytes) : StreamDatagramHeader :=
  (e.filled e.ring.nextHandleAcquire bs []).header e.ring.nextHandleAcquire

/-- Offset and length of what a call of `acquireRecv` stores, whether it returns or not. -/
def stored (e : Endpoint) (arrivals : Arrivals) : List (Nat × Nat) :=
  if e.ring.full then []
  else
    match e.firstRecv arrivals with
    | none | some (none, _) => []
    | some (some found, rest) =>
      let bytes := (e.nextHeader found).bytes.toNat
      (0, found.length) ::
        if e.config.datagramMode && found.length < bytes then []
        else restStored bytes bytes found.length rest

section Rest

variable {e : Endpoint} {h : BuffHandle} {arrivals : Arrivals} {bytes : Nat}

end Rest

/-- What is received of a record, when `found` is what the first call returned. -/
def record (e : Endpoint) (found : Bytes) (rest : Arrivals) : Bytes :=
  if e.config.datagramMode then found
  else found ++ (streamBytes rest).take ((e.nextHeader found).bytes.toNat - found.length)

/-- The count is a code, or the elements of every channel lie in the first `received` bytes of the
    buffer. -/
def Within (c : EndpointConfig) (numElemsOrErr : Int32) (received : Nat) : Prop :=
  numElemsOrErr < 0 ∨ numElemsOrErr.toInt ≤ c.buffSize.toNat ∧
    ∀ i, i < c.numChans.toNat → (c.channelOffset (UInt64.ofNat i)).toNat +
      numElemsOrErr.toInt.toNat * c.elemSize.toNat ≤ received

section Acquire

variable {e : Endpoint} {arrivals rest : Arrivals} {found : Bytes}

end Acquire

end Endpoint

end Soapy.Remote
