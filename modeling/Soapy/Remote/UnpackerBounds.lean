import Soapy.Remote.Codec

/-! # Where the unpacker reads

The message comes from the network. Of the three primitive readers only
`unpack(length)` compares with the end of the payload, and it does so with
wrapping arithmetic; `unpack(void)` and `peekType` index the message as they
find the offset. A session of calls stays inside the payload exactly when it
never reaches either gap.
-/

namespace Soapy.Remote

open Lib

/-- The public reads of an unpacker. `done` reads no message bytes. -/
inductive UnpackOp where
  | value (kind : Kind)
  | type
  | peekType
  | done

def UnpackOp.program (remoteRPCVersion : UInt32) : UnpackOp → Unpack Unit
  | .value kind => do
    let _ ← kind.unpack remoteRPCVersion
  | .type => do
    let _ ← Unpack.type
  | .peekType => do
    let _ ← Unpack.peekType
  | .done => pure ()

abbrev ReadStep := Program.Step ReadInstr Unpacker

/-- Everything that happens to an unpacker whose message passed the header and
    trailer checks: the end of `recv`, then the calls, whether they throw or not. -/
def readSession (u : Unpacker) (ops : List UnpackOp) : List ReadStep :=
  Program.sessionSteps Unpacker.exec
    (Unpack.recvTail :: ops.map (UnpackOp.program u.remoteRPCVersion)) u

namespace ReadStep

/-- The number of message bytes the instruction asks for, from the offset on. -/
def wanted (step : ReadStep) : Nat :=
  match step.instr with
  | .byte | .peek => 1
  | .blob length => length.toNat

def throws (step : ReadStep) : Prop :=
  ∃ e, (Unpacker.exec step.instr step.before).1 = .error e

/-- Bytes at or behind the trailer are not read but answered by an exception, and the offset moves
    forward only and stays in the payload. -/
structure Safe (step : ReadStep) : Prop where
  inside : ¬ step.throws → step.before.offset + step.wanted ≤ step.before.limit
  forward : step.before.offset ≤ step.after.offset
  bounded : step.after.offset ≤ step.after.limit

def Exhausted (step : ReadStep) : Prop :=
  (step.instr = .byte ∨ step.instr = .peek) ∧ step.before.limit ≤ step.before.offset

/-- The end of the blob passes `2 ^ 64`: the size of a string was negative, and not
    further below zero than the offset is above it. -/
def Wraps (step : ReadStep) : Prop :=
  ∃ length, step.instr = .blob length ∧ 2 ^ 64 ≤ step.before.offset + length.toNat

end ReadStep

/-- The offset is in the payload, and the message is one a 32-bit length announced. -/
structure Unpacker.InPayload (u : Unpacker) : Prop where
  capacity : u.capacity < 2 ^ 32
  offset : u.offset ≤ u.limit
  limit : u.limit < 2 ^ 32

variable {u : Unpacker}

theorem Unpacker.InPayload.start (start : u.offset = 0)
    (room : trailerSize ≤ u.capacity) (capacity : u.capacity < 2 ^ 32) : u.InPayload := by
  have limit := Unpacker.limit_eq room capacity
  exact ⟨capacity, by omega, by omega⟩

theorem byteStep_agrees (inv : u.InPayload) :
    ReadStep.Safe ⟨u, .byte, (Unpacker.exec .byte u).2⟩ ↔ u.offset < u.limit := by
  have offset := inv.offset
  have limit := inv.limit
  have answered : ¬ ReadStep.throws ⟨u, .byte, (Unpacker.exec .byte u).2⟩ := by
    rintro ⟨e, h⟩
    cases h
  have next : (u.offset + 1) % 2 ^ 64 = u.offset + 1 := by omega
  constructor
  · intro safe
    exact safe.inside answered
  · intro left
    refine ⟨fun _ => left, ?_, ?_⟩
    · change u.offset ≤ (u.offset + 1) % 2 ^ 64
      omega
    · change (u.offset + 1) % 2 ^ 64 ≤ u.limit
      omega

theorem peekStep_agrees (inv : u.InPayload) :
    ReadStep.Safe ⟨u, .peek, (Unpacker.exec .peek u).2⟩ ↔ u.offset < u.limit := by
  have answered : ¬ ReadStep.throws ⟨u, .peek, (Unpacker.exec .peek u).2⟩ := by
    rintro ⟨e, h⟩
    cases h
  constructor
  · intro safe
    exact safe.inside answered
  · intro left
    exact ⟨fun _ => left, le_refl _, inv.offset⟩

theorem exec_blob_refused {length : UInt64}
    (beyond : u.limit < (u.offset + length.toNat) % 2 ^ 64) :
    Unpacker.exec (.blob length) u =
      (.error (.runtimeError (ascii "SoapyRPCUnpacker::unpack() OVER-CONSUME")), u) :=
  if_pos beyond

theorem exec_blob_passed {length : UInt64}
    (passed : ¬ u.limit < (u.offset + length.toNat) % 2 ^ 64) :
    (Unpacker.exec (.blob length) u).2 =
      { u with offset := (u.offset + length.toNat) % 2 ^ 64 } := by
  simp only [Unpacker.exec]
  rw [if_neg passed]
  split <;> rfl

theorem blobStep_agrees (inv : u.InPayload) (length : UInt64) :
    ReadStep.Safe ⟨u, .blob length, (Unpacker.exec (.blob length) u).2⟩ ↔
      u.offset + length.toNat < 2 ^ 64 := by
  have offset := inv.offset
  have limit := inv.limit
  have word := length.toNat_lt
  constructor
  · intro safe
    by_contra wraps
    -- the wrapped end lies before the offset, so the check passes and the offset moves back
    have back : (u.offset + length.toNat) % 2 ^ 64 < u.offset := by omega
    have forward := safe.forward
    rw [exec_blob_passed (by omega)] at forward
    exact absurd back (not_lt.mpr forward)
  · intro small
    have next : (u.offset + length.toNat) % 2 ^ 64 = u.offset + length.toNat := Nat.mod_eq_of_lt small
    by_cases beyond : u.limit < (u.offset + length.toNat) % 2 ^ 64
    · have refused := exec_blob_refused beyond
      rw [refused]
      exact ⟨fun answered => absurd ⟨_, congrArg Prod.fst refused⟩ answered, le_refl _, offset⟩
    · rw [exec_blob_passed beyond]
      rw [next] at beyond ⊢
      exact ⟨fun _ => not_lt.mp beyond, Nat.le_add_right _ _, not_lt.mp beyond⟩

theorem exec_capacity (i : ReadInstr) (u : Unpacker) :
    (Unpacker.exec i u).2.capacity = u.capacity := by
  cases i with
  | byte | peek => rfl
  | blob length =>
    by_cases beyond : u.limit < (u.offset + length.toNat) % 2 ^ 64
    · rw [exec_blob_refused beyond]
    · rw [exec_blob_passed beyond]

theorem exec_limit (i : ReadInstr) (u : Unpacker) : (Unpacker.exec i u).2.limit = u.limit := by
  unfold Unpacker.limit
  rw [exec_capacity]

theorem reads_agree : Program.Agrees Unpacker.exec Unpacker.InPayload ReadStep.Safe
    (fun step => ¬ ReadStep.Exhausted step ∧ ¬ ReadStep.Wraps step) where
  iff u i inv := by
    cases i with
    | byte =>
      rw [byteStep_agrees inv]
      simp [ReadStep.Exhausted, ReadStep.Wraps]
    | peek =>
      rw [peekStep_agrees inv]
      simp [ReadStep.Exhausted, ReadStep.Wraps]
    | blob length =>
      rw [blobStep_agrees inv]
      simp [ReadStep.Exhausted, ReadStep.Wraps]
  keeps u i inv safe := by
    refine ⟨?_, safe.bounded, ?_⟩
    · rw [exec_capacity]
      exact inv.capacity
    · rw [exec_limit]
      exact inv.limit

theorem recvMessage_inPayload {link : Link} {stream rest : Bytes}
    (accepted : recvMessage link stream = some (.ok u, rest)) : u.InPayload := by
  simp only [recvMessage] at accepted
  split at accepted
  · simp at accepted
  rename_i whole
  split at accepted
  · simp at accepted
  split at accepted
  · simp at accepted
  rename_i long
  have word : ofBE ((stream.take headerSize).drop 8) < 2 ^ 32 := by
    have bound := ofBE_lt ((stream.take headerSize).drop 8)
    have size : ((stream.take headerSize).drop 8).length = 4 := by
      rw [List.length_drop, not_not.mp whole]
      rfl
    rw [size] at bound
    exact lt_of_lt_of_eq bound (by decide)
  split at accepted
  · simp at accepted
  · simp at accepted
  split at accepted
  · simp at accepted
  simp only [Option.some.injEq, Prod.mk.injEq, Except.ok.injEq] at accepted
  obtain ⟨rfl, _⟩ := accepted
  have capacity : ofBE ((stream.take headerSize).drop 8) - headerSize < 2 ^ 32 := by omega
  have room : trailerSize ≤ ofBE ((stream.take headerSize).drop 8) - headerSize := by omega
  exact Unpacker.InPayload.start rfl room capacity

/-- The reads stay in the payload exactly when no single byte is read from a used up payload and no
    string of negative size is read whose end wraps. -/
theorem readSession_safe_iff {link : Link} {stream rest : Bytes} {u : Unpacker}
    (accepted : recvMessage link stream = some (.ok u, rest)) (ops : List UnpackOp) :
    (∀ step ∈ readSession u ops, ReadStep.Safe step) ↔
      ∀ step ∈ readSession u ops, ¬ ReadStep.Exhausted step ∧ ¬ ReadStep.Wraps step :=
  reads_agree.session_iff _ (recvMessage_inPayload accepted)

/-- The shortest reply, a bare VOID, as `recv` accepts it. -/
def voidReply : Unpacker := received idealLink (packType .VOID)

theorem recvMessage_voidReply :
    recvMessage idealLink (frame (packType .VOID)) = some (.ok voidReply, []) := by
  have accepted := recvMessage_frame idealLink (by simp [idealLink]) (packType .VOID) []
    (by simp [packType]) (by decide)
  rwa [List.append_nil] at accepted

theorem readSession_voidReply_iff :
    (∀ step ∈ readSession voidReply [.done], ReadStep.Safe step) ↔
      ∀ step ∈ readSession voidReply [.done],
        ¬ ReadStep.Exhausted step ∧ ¬ ReadStep.Wraps step :=
  readSession_safe_iff recvMessage_voidReply [.done]

/-- Unpacking an int from a VOID reply takes its type tag from the trailer. -/
theorem voidReply_overread :
    recvMessage idealLink (frame (packType .VOID)) = some (.ok voidReply, []) ∧
      ¬ ∀ step ∈ readSession voidReply [.value .int], ReadStep.Safe step := by
  refine ⟨recvMessage_voidReply, fun safe => ?_⟩
  have third : (readSession voidReply [.value .int])[2]? =
      some ⟨voidReply.advance 1, .byte, voidReply.advance 2⟩ := rfl
  have inside := (safe _ (List.mem_of_getElem? third)).inside (by rintro ⟨e, h⟩; cases h)
  exact absurd inside (by decide)

end Soapy.Remote
