import Soapy.Remote.Defs

/-! # SoapyRPCPacker

Each `operator&` of the packer appends bytes to the message, so it is given by
the bytes it appends. `remoteRPCVersion` only matters to `Range`, and through it
to the values that contain one. Integers are packed with `htonl` and `htonll`.

The growth of the message buffer (`ensureSpace`) is left out: it reallocates to
what is needed before every write.
-/

namespace Soapy.Remote

open Lib

def packType (t : RemoteTypes) : Bytes := [t.code]

def packChar (value : Int8) : Bytes :=
  packType .CHAR ++ [value.toUInt8]

def packBool (value : Bool) : Bytes :=
  packType .BOOL ++ [if value then 1 else 0]

def packInt (value : Int32) : Bytes :=
  packType .INT32 ++ toBE 4 value.toBitVec.toNat

def packLongLong (value : Int64) : Bytes :=
  packType .INT64 ++ toBE 8 value.toBitVec.toNat

def packCall (value : CallCode) : Bytes :=
  packType .CALL ++ packInt value.code

def packDouble (value : Double) : Bytes :=
  packType .FLOAT64 ++ packInt (Int32.ofInt value.split.1) ++
    packLongLong (Int64.ofInt value.split.2)

def packComplex (value : Complex128) : Bytes :=
  packType .COMPLEX128 ++ packDouble value.real ++ packDouble value.imag

/-- `int(value.size())`: the length keeps its low 32 bits. -/
def packSize (size : Nat) : Bytes := packInt (Int32.ofNat size)

def packString (value : Bytes) : Bytes :=
  packType .STRING ++ packSize value.length ++ value

/-- The list overloads: the tag, the element count, then the elements. -/
def packList {α : Type} (t : RemoteTypes) (pack : α → Bytes) (value : List α) : Bytes :=
  packType t ++ packSize value.length ++ value.flatMap pack

def packStringList : List Bytes → Bytes := packList .STRING_LIST packString

def packDoubleList : List Double → Bytes := packList .FLOAT64_LIST packDouble

/-- The map is walked in key order. -/
def packKwargs (value : Kwargs) : Bytes :=
  packList .KWARGS (fun it => packString it.1 ++ packString it.2) value.entries

def packKwargsList : List Kwargs → Bytes := packList .KWARGS_LIST packKwargs

/-- `int(value[i])` of a `size_t`. -/
def packSizeList : List UInt64 → Bytes :=
  packList .SIZE_LIST (fun n => packInt (Int32.ofNat n.toNat))

def packException (value : Exn) : Bytes :=
  packType .EXCEPTION ++ packString value.what

section Versioned

variable (remoteRPCVersion : UInt32)

/-- A step size is sent when the remote version matches our current. -/
def packRange (value : Range) : Bytes :=
  packType .RANGE ++ packDouble value.minimum ++ packDouble value.maximum ++
    if SoapyRPCVersion ≤ remoteRPCVersion then packDouble value.step else []

def packRangeList : List Range → Bytes :=
  packList .RANGE_LIST (packRange remoteRPCVersion)

def packArgInfo (value : ArgInfo) : Bytes :=
  packType .ARG_INFO ++ packString value.key ++ packString value.value ++
    packString value.name ++ packString value.description ++ packString value.units ++
    packInt value.type.code ++ packRange remoteRPCVersion value.range ++
    packStringList value.options ++ packStringList value.optionNames

def packArgInfoList : List ArgInfo → Bytes :=
  packList .ARG_INFO_LIST (packArgInfo remoteRPCVersion)

end Versioned

/-- The message `send` puts on the wire around the packed values. The constructor reserves the
    header, `send` appends the trailer and fills the header in. -/
def frame (payload : Bytes) : Bytes :=
  toBE 4 SoapyRPCHeaderWord.toNat ++ toBE 4 SoapyRPCVersion.toNat ++
    toBE 4 ((headerSize + payload.length + trailerSize) % 2 ^ 32) ++
    payload ++ toBE 4 SoapyRPCTrailerWord.toNat

/-- What the kernel does with a socket call when `n` bytes are still to be moved:
    move some of them, or fail. -/
abbrev Grants := Nat → Option Nat

/-- The loop of `send`, as the pieces the kernel accepts: at least one byte of the at most
    `SOAPY_REMOTE_SOCKET_BUFFMAX` bytes that are offered to a call. -/
def sendLoop (grants : Grants) (lastErrorMsg : Bytes) : Nat → Bytes → Except Exn (List Bytes)
  | 0, _ => .ok []
  | fuel + 1, rest =>
    if rest.isEmpty then .ok []
    else
      match grants rest.length with
      | none => .error (.runtimeError (ascii "SoapyRPCPacker::send() FAIL: " ++ lastErrorMsg))
      | some n =>
        let toSend := min socketBuffMax rest.length
        let ret := max 1 (min n toSend)
        match sendLoop grants lastErrorMsg fuel (rest.drop ret) with
        | .ok pieces => .ok (rest.take ret :: pieces)
        | .error e => .error e

/-- `SoapyRPCPacker::send`. Every piece moves at least one byte, so the length of
    the message bounds the number of calls. -/
def send (grants : Grants) (lastErrorMsg : Bytes) (payload : Bytes) : Except Exn (List Bytes) :=
  sendLoop grants lastErrorMsg (frame payload).length (frame payload)

theorem sendLoop_flatten (grants : Grants) (msg : Bytes) (works : ∀ n, (grants n).isSome)
    (fuel : Nat) (rest : Bytes) (enough : rest.length ≤ fuel) :
    ∃ pieces, sendLoop grants msg fuel rest = .ok pieces ∧ pieces.flatten = rest := by
  induction fuel generalizing rest with
  | zero =>
    have none : rest = [] := List.length_eq_zero_iff.mp (by omega)
    exact ⟨[], rfl, none.symm⟩
  | succ fuel ih =>
    by_cases done : rest = []
    · subst done
      exact ⟨[], rfl, rfl⟩
    obtain ⟨n, granted⟩ := Option.isSome_iff_exists.mp (works rest.length)
    have nonempty : 0 < rest.length := List.length_pos_iff.mpr done
    obtain ⟨pieces, later, same⟩ := ih
      (rest.drop (max 1 (min n (min socketBuffMax rest.length))))
      (by rw [List.length_drop]; omega)
    refine ⟨rest.take (max 1 (min n (min socketBuffMax rest.length))) :: pieces, ?_, ?_⟩
    · simp [sendLoop, done, granted, later]
    · rw [List.flatten_cons, same, List.take_append_drop]

theorem send_flatten (grants : Grants) (msg payload : Bytes) (works : ∀ n, (grants n).isSome) :
    ∃ pieces, send grants msg payload = .ok pieces ∧ pieces.flatten = frame payload :=
  sendLoop_flatten grants msg works _ _ (le_refl _)

end Soapy.Remote
