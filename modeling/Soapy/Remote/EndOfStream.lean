import Soapy.Remote.StreamEndpoint

/-! # The end of the stream

A peer sends some bytes and closes the connection: `recv` returns between one byte and what it is
asked for while there are any, and nothing from then on. The loops that receive a payload call it
until they have all of the payload.
-/

namespace Soapy.Remote

open Lib

/-- How much of what is there each call returns, when it is asked for some bytes. -/
abbrev Splits := Nat → Nat

/-- A `recv` call: what it returns, and the bytes behind it. -/
def recvCall (splits : Splits) (len : Nat) (stream : Bytes) : Bytes × Bytes :=
  let ret := max 1 (min (splits stream.length) len)
  (stream.take ret, stream.drop ret)

/-- The loop of `SoapyRPCUnpacker::recv`, of at most `calls` calls. -/
def recvPayload (splits : Splits) : Nat → Bytes → Nat → Option (Bytes × Bytes)
  | _, stream, 0 => some ([], stream)
  | 0, _, _ + 1 => none
  | calls + 1, stream, need + 1 =>
    let (found, stream) := recvCall splits (min socketBuffMax (need + 1)) stream
    match recvPayload splits calls stream (need + 1 - found.length) with
    | none => none
    | some (received, rest) => some (found ++ received, rest)

/-- `SoapyRPCUnpacker::recv`, with a payload loop of at most `calls` calls. -/
def recvWithin (splits : Splits) (calls : Nat) (lastErrorMsg : Bytes) (heap : Nat → UInt8)
    (stream : Bytes) : Option (Except Exn Unpacker × Bytes) :=
  let header := stream.take headerSize
  let stream := stream.drop headerSize
  if header.length ≠ headerSize then
    some (.error (.runtimeError
      (ascii "SoapyRPCUnpacker::recv(header) FAIL: " ++ lastErrorMsg)), stream)
  else if ofBE (header.take 4) ≠ SoapyRPCHeaderWord.toNat then
    some (.error (.runtimeError (ascii "SoapyRPCUnpacker::recv() FAIL: header word")), stream)
  else
    let version := UInt32.ofNat (ofBE ((header.drop 4).take 4))
    let length := ofBE (header.drop 8)
    if length ≤ headerSize + trailerSize then
      some (.error (.runtimeError (ascii "SoapyRPCUnpacker::recv() FAIL: header length")), stream)
    else
      let capacity := length - headerSize
      match recvPayload splits calls stream capacity with
      | none => none
      | some (message, rest) =>
        if ofBE (message.drop (capacity - trailerSize)) ≠ SoapyRPCTrailerWord.toNat then
          some (.error (.runtimeError (ascii "SoapyRPCUnpacker::recv() FAIL: trailer word")), rest)
        else
          match Program.run Unpacker.exec Unpack.recvTail
            ⟨fun i => message.getD i (heap i), 0, capacity, version⟩ with
          | (.ok _, u) => some (.ok u, rest)
          | (.error e, _) => some (.error e, rest)

namespace Endpoint

/-- The loop of `acquireRecv` that receives the rest of a record, of at most `calls` calls. -/
def recvRestWithin (splits : Splits) (h : BuffHandle) (bytes : Nat) :
    Nat → Nat → Endpoint → Bytes → Option (Endpoint × Bytes)
  | calls, bytesRecvd, e, stream =>
    if bytes ≤ bytesRecvd then some (e, stream)
    else
      match calls with
      | 0 => none
      | calls + 1 =>
        let call := recvCall splits (min socketBuffMax (bytes - bytesRecvd)) stream
        recvRestWithin splits h bytes calls (bytesRecvd + call.1.length)
          (e.store h bytesRecvd call.1) call.2

def headerReceived (e : Endpoint) (stream : Bytes) : Endpoint :=
  let found := stream.take streamHeaderSize
  e.filled e.ring.nextHandleAcquire found [(0, found.length)]

/-- The size that the header of the record says it has. -/
def declared (e : Endpoint) (stream : Bytes) : Nat :=
  ((e.headerReceived stream).header e.ring.nextHandleAcquire).bytes.toNat

/-- `acquireRecv` on a stream, with a loop of at most `calls` calls. -/
def acquireRecvWithin (splits : Splits) (calls : Nat) (e : Endpoint) (stream : Bytes) :
    Option (Acquired × Endpoint × Bytes) :=
  if e.ring.full then some (⟨streamError, none, none⟩, e, stream)
  else
    match recvRestWithin splits e.ring.nextHandleAcquire (e.declared stream) calls
      (stream.take streamHeaderSize).length (e.headerReceived stream)
      (stream.drop streamHeaderSize) with
    | none => none
    | some (e', rest) =>
      some ((e'.accept e.ring.nextHandleAcquire).1, (e'.accept e.ring.nextHandleAcquire).2, rest)

end Endpoint

section Loops

section Call

variable (splits : Splits) (stream : Bytes) (len : Nat)

theorem recvCall_length : (recvCall splits len stream).2.length =
    stream.length - (recvCall splits len stream).1.length := by
  simp only [recvCall, List.length_take, List.length_drop]
  omega

theorem recvCall_le : (recvCall splits len stream).1.length ≤ stream.length := by
  simp only [recvCall, List.length_take]
  exact Nat.min_le_right _ _

theorem recvCall_pos (more : 0 < stream.length) :
    0 < (recvCall splits len stream).1.length := by
  simp only [recvCall, List.length_take]
  omega

end Call

variable {splits : Splits} {stream : Bytes}

theorem recvPayload_returns {calls need : Nat} (enough : need ≤ stream.length)
    (many : need ≤ calls) : ∃ r, recvPayload splits calls stream need = some r := by
  induction calls generalizing stream need with
  | zero =>
    obtain rfl := Nat.le_zero.mp many
    exact ⟨_, rfl⟩
  | succ calls ih =>
    cases need with
    | zero => exact ⟨_, rfl⟩
    | succ need =>
      have some_bytes := recvCall_pos splits stream (min socketBuffMax (need + 1))
        (Nat.lt_of_lt_of_le (Nat.succ_pos need) enough)
      have left := recvCall_length splits stream (min socketBuffMax (need + 1))
      obtain ⟨r, returns⟩ := @ih (recvCall splits (min socketBuffMax (need + 1)) stream).2
        (need + 1 - (recvCall splits (min socketBuffMax (need + 1)) stream).1.length)
        (by omega) (by omega)
      exact ⟨_, by simp only [recvPayload, returns]; rfl⟩

theorem recvPayload_loops (calls : Nat) {need : Nat} (missing : stream.length < need) :
    recvPayload splits calls stream need = none := by
  induction calls generalizing stream need with
  | zero =>
    cases need with
    | zero => cases missing
    | succ need => rfl
  | succ calls ih =>
    cases need with
    | zero => cases missing
    | succ need =>
      have left := recvCall_length splits stream (min socketBuffMax (need + 1))
      have within := recvCall_le splits stream (min socketBuffMax (need + 1))
      have again := @ih (recvCall splits (min socketBuffMax (need + 1)) stream).2
        (need + 1 - (recvCall splits (min socketBuffMax (need + 1)) stream).1.length)
        (by omega)
      simp only [recvPayload, again]

theorem recvRest_returns {h : BuffHandle} {bytes calls bytesRecvd : Nat} {e : Endpoint}
    (enough : bytes ≤ bytesRecvd + stream.length) (many : bytes ≤ bytesRecvd + calls) :
    ∃ r, Endpoint.recvRestWithin splits h bytes calls bytesRecvd e stream = some r := by
  induction calls generalizing stream bytesRecvd e with
  | zero =>
    have done : bytes ≤ bytesRecvd := many
    rw [Endpoint.recvRestWithin, if_pos done]
    exact ⟨_, rfl⟩
  | succ calls ih =>
    by_cases done : bytes ≤ bytesRecvd
    · rw [Endpoint.recvRestWithin, if_pos done]
      exact ⟨_, rfl⟩
    · rw [Endpoint.recvRestWithin, if_neg done]
      have some_bytes := recvCall_pos splits stream (min socketBuffMax (bytes - bytesRecvd)) (by omega)
      have left := recvCall_length splits stream (min socketBuffMax (bytes - bytesRecvd))
      exact ih (by omega) (by omega)

theorem recvRest_loops {h : BuffHandle} {bytes bytesRecvd : Nat} {e : Endpoint} (calls : Nat)
    (missing : bytesRecvd + stream.length < bytes) :
    Endpoint.recvRestWithin splits h bytes calls bytesRecvd e stream = none := by
  induction calls generalizing stream bytesRecvd e with
  | zero => rw [Endpoint.recvRestWithin, if_neg (by omega)]
  | succ calls ih =>
    rw [Endpoint.recvRestWithin, if_neg (by omega)]
    have left := recvCall_length splits stream (min socketBuffMax (bytes - bytesRecvd))
    have within := recvCall_le splits stream (min socketBuffMax (bytes - bytesRecvd))
    exact ih (by omega)

end Loops

def announced (stream : Bytes) : Option Nat :=
  let header := stream.take headerSize
  if header.length ≠ headerSize then none
  else if ofBE (header.take 4) ≠ SoapyRPCHeaderWord.toNat then none
  else if ofBE (header.drop 8) ≤ headerSize + trailerSize then none
  else some (ofBE (header.drop 8))

section Ends

variable (splits : Splits) (lastErrorMsg : Bytes) (heap : Nat → UInt8) (stream : Bytes)

theorem recvWithin_refused (none_ : announced stream = none) :
    ∃ r, recvWithin splits 0 lastErrorMsg heap stream = some r := by
  unfold announced at none_
  unfold recvWithin
  simp only at none_ ⊢
  split
  · exact ⟨_, rfl⟩
  · rename_i whole
    rw [if_neg whole] at none_
    split
    · exact ⟨_, rfl⟩
    · rename_i word
      rw [if_neg word] at none_
      split
      · exact ⟨_, rfl⟩
      · rename_i long
        rw [if_neg long] at none_
        cases none_

theorem recvWithin_announced {length : Nat} (some_ : announced stream = some length) :
    headerSize ≤ stream.length ∧ headerSize < length ∧
      ∀ calls, recvWithin splits calls lastErrorMsg heap stream = none ↔
        recvPayload splits calls (stream.drop headerSize) (length - headerSize) = none := by
  unfold announced at some_
  simp only at some_
  split at some_
  · cases some_
  · rename_i whole
    split at some_
    · cases some_
    · rename_i word
      split at some_
      · cases some_
      · rename_i long
        cases some_
        refine ⟨?_, ?_, ?_⟩
        · rw [not_not, List.length_take] at whole
          omega
        · omega
        · intro calls
          simp only [recvWithin, if_neg whole, if_neg word, if_neg long]
          cases recvPayload splits calls (stream.drop headerSize)
            (ofBE ((stream.take headerSize).drop 8) - headerSize) with
          | none => simp
          | some r =>
            simp only [reduceCtorEq, iff_false]
            split
            · simp
            · split <;> simp

/-- `SoapyRPCUnpacker::recv` returns or throws if and only if all of an announced message is
    there. -/
theorem recv_ends_iff :
    (∃ calls r, recvWithin splits calls lastErrorMsg heap stream = some r) ↔
      ∀ length, announced stream = some length → length ≤ stream.length := by
  constructor
  · intro ends length some_
    obtain ⟨calls, r, returns⟩ := ends
    obtain ⟨header, long, none_iff⟩ := recvWithin_announced splits lastErrorMsg heap stream some_
    by_contra missing
    have loops := @recvPayload_loops splits (stream.drop headerSize) calls (length - headerSize)
      (by rw [List.length_drop]; omega)
    rw [← none_iff, returns] at loops
    cases loops
  · intro whole
    cases some_ : announced stream with
    | none => exact ⟨0, recvWithin_refused splits lastErrorMsg heap stream some_⟩
    | some length =>
      have enough := whole length some_
      obtain ⟨header, long, none_iff⟩ := recvWithin_announced splits lastErrorMsg heap stream some_
      obtain ⟨r, returns⟩ := @recvPayload_returns splits (stream.drop headerSize)
        (length - headerSize) (length - headerSize)
        (by rw [List.length_drop]; omega) (Nat.le_refl _)
      refine ⟨length - headerSize, ?_⟩
      apply Option.ne_none_iff_exists'.mp
      rw [Ne, none_iff, returns]
      nofun

theorem Endpoint.acquireRecv_ends_iff (e : Endpoint) :
    (∃ calls r, e.acquireRecvWithin splits calls stream = some r) ↔
      e.ring.full = true ∨ e.declared stream ≤ stream.length := by
  have sizes : (stream.take streamHeaderSize).length + (stream.drop streamHeaderSize).length =
      stream.length := by
    rw [← List.length_append, List.take_append_drop]
  unfold acquireRecvWithin
  constructor
  · intro ends
    obtain ⟨calls, r, returns⟩ := ends
    by_contra stuck
    rw [not_or] at stuck
    rw [if_neg stuck.1, recvRest_loops calls (by omega)] at returns
    cases returns
  · intro meets
    cases full : e.ring.full with
    | true => exact ⟨0, _, rfl⟩
    | false =>
      have enough : e.declared stream ≤ stream.length := by
        rcases meets with all | enough
        · cases full.symm.trans all
        · exact enough
      obtain ⟨r, returns⟩ := @recvRest_returns splits (stream.drop streamHeaderSize)
        e.ring.nextHandleAcquire (e.declared stream) (e.declared stream)
        (stream.take streamHeaderSize).length (e.headerReceived stream) (by omega)
        (Nat.le_add_left _ _)
      refine ⟨e.declared stream, ?_⟩
      simp only [Bool.false_eq_true, if_false, returns]
      exact ⟨_, rfl⟩

/-- On a stream that ends, `SoapyRPCUnpacker::recv` and `acquireRecv` return, if and only if all of
    the message and of the record is there. -/
theorem receive_ends_iff (e : Endpoint) :
    ((∃ calls r, recvWithin splits calls lastErrorMsg heap stream = some r) ↔
      ∀ length, announced stream = some length → length ≤ stream.length) ∧
    ((∃ calls r, e.acquireRecvWithin splits calls stream = some r) ↔
      e.ring.full = true ∨ e.declared stream ≤ stream.length) :=
  ⟨recv_ends_iff splits lastErrorMsg heap stream, e.acquireRecv_ends_iff splits stream⟩

end Ends

/-- The peer closes the connection behind a header that announces a longer message. -/
theorem recv_never_ends :
    ¬ ∀ (splits : Splits) (lastErrorMsg : Bytes) (heap : Nat → UInt8) (stream : Bytes),
      ∃ calls r, recvWithin splits calls lastErrorMsg heap stream = some r := by
  intro ends
  have all := (recv_ends_iff (fun _ => 1) [] (fun _ => 0)
    (toBE 4 SoapyRPCHeaderWord.toNat ++ toBE 4 0 ++ toBE 4 17)).mp (ends _ _ _ _) 17 (by decide)
  revert all
  decide

end Soapy.Remote
