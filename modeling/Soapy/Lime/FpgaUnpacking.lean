import Soapy.Lime.FpgaPackets

/-! # Samples from a payload

`FPGAPacketPayload2Samples` reads back what `Samples2FPGAPacketPayload` writes. Sizes are C `int`s.
-/

namespace Soapy.Lime

open Lib

namespace Complex16

/-- Two bytes as an `int16_t`, the low one first. -/
def word (lo hi : UInt8) : Int16 := (lo.toUInt16 ||| hi.toUInt16 <<< 8).toInt16

/-- A sample from its three bytes. The second one is read twice. -/
def ofPacked (b₀ b₁ b₂ : UInt8) : Complex16 := ⟨(word b₀ b₁ <<< 4) >>> 4, word b₁ b₂ >>> 4⟩

def ofRaw (b₀ b₁ b₂ b₃ : UInt8) : Complex16 := ⟨word b₀ b₁, word b₂ b₃⟩

/-- The low 12 bits, sign-extended. -/
def low12 (v : Int16) : Int16 := .ofInt (v.toInt.bmod 4096)

theorem low12_of_range {v : Int16} (low : -2048 ≤ v.toInt) (high : v.toInt ≤ 2047) :
    low12 v = v := by
  rw [low12, Int.bmod_eq_of_le (by omega) (by omega), Int16.ofInt_toInt]

theorem word_toBitVec (lo hi : UInt8) :
    (word lo hi).toBitVec = lo.toBitVec.setWidth 16 ||| hi.toBitVec.setWidth 16 <<< 8 := rfl

variable (v : Int16)

theorem shl_toBitVec : (v <<< 4).toBitVec = v.toBitVec <<< 4 := rfl

theorem shr_toBitVec : (v >>> 4).toBitVec = v.toBitVec.sshiftRight 4 := rfl

theorem shr8_toBitVec : (v >>> 8).toBitVec = v.toBitVec.sshiftRight 8 := rfl

theorem byte_toBitVec : (byte v).toBitVec = v.toBitVec.setWidth 8 := rfl

theorem low12_toBitVec :
    (low12 v).toBitVec = (v.toBitVec.setWidth 12).signExtend 16 := by
  apply BitVec.eq_of_toInt_eq
  have low : -2048 ≤ v.toInt.bmod 4096 := Int.le_bmod (by decide)
  have high : v.toInt.bmod 4096 < 2048 := Int.bmod_lt (by decide)
  have here : (low12 v).toBitVec.toInt = v.toInt.bmod 4096 :=
    Int16.toInt_ofInt_of_le (by omega) (by omega)
  have there : v.toInt = (v.toBitVec.toNat : Int).bmod (2 ^ 16) := BitVec.toInt_eq_toNat_bmod _
  rw [BitVec.toInt_signExtend_of_le (by decide), BitVec.toInt_setWidth, here, there,
    Int.bmod_bmod_of_dvd (by decide)]

variable (s : Complex16)

theorem packed_i :
    (word (byte s.i) (byte ((s.i >>> 8 &&& (0x0F : Int16)) ||| s.q <<< 4)) <<< 4) >>> 4 =
      low12 s.i := by
  apply Int16.toBitVec_inj.mp
  rw [low12_toBitVec]
  simp only [shl_toBitVec, shr_toBitVec, word_toBitVec, byte_toBitVec, Int16.toBitVec_or,
    Int16.toBitVec_and, shr8_toBitVec]
  ext k below
  interval_cases k <;> simp [BitVec.getElem_sshiftRight, BitVec.getElem_signExtend,
    BitVec.msb_eq_getLsbD_last]

theorem packed_q :
    word (byte ((s.i >>> 8 &&& (0x0F : Int16)) ||| s.q <<< 4)) (byte (s.q >>> 4)) >>> 4 =
      low12 s.q := by
  apply Int16.toBitVec_inj.mp
  rw [low12_toBitVec]
  simp only [shl_toBitVec, shr_toBitVec, word_toBitVec, byte_toBitVec, Int16.toBitVec_or,
    Int16.toBitVec_and, shr8_toBitVec]
  ext k below
  interval_cases k <;> simp [BitVec.getElem_sshiftRight, BitVec.getElem_signExtend,
    BitVec.msb_eq_getLsbD_last]

theorem packedBytes_ofPacked (b₀ b₁ b₂ : UInt8) :
    (ofPacked b₀ b₁ b₂).packedBytes = [b₀, b₁, b₂] := by
  have first : byte ((word b₀ b₁ <<< 4) >>> 4) = b₀ := by
    apply UInt8.toBitVec_inj.mp
    simp only [shl_toBitVec, shr_toBitVec, word_toBitVec, byte_toBitVec]
    ext k below
    interval_cases k <;> simp [BitVec.getElem_sshiftRight]
  have second : byte (((word b₀ b₁ <<< 4) >>> 4 >>> 8 &&& (0x0F : Int16)) |||
      (word b₁ b₂ >>> 4) <<< 4) = b₁ := by
    apply UInt8.toBitVec_inj.mp
    simp only [shl_toBitVec, shr_toBitVec, word_toBitVec, byte_toBitVec, Int16.toBitVec_or,
      Int16.toBitVec_and, shr8_toBitVec]
    ext k below
    interval_cases k <;> simp [BitVec.getElem_sshiftRight]
  have third : byte (word b₁ b₂ >>> 4 >>> 4) = b₂ := by
    apply UInt8.toBitVec_inj.mp
    simp only [shr_toBitVec, word_toBitVec, byte_toBitVec]
    ext k below
    interval_cases k <;> simp [BitVec.getElem_sshiftRight]
  rw [packedBytes, ofPacked, first, second, third]

theorem rawBytes_ofRaw (b₀ b₁ b₂ b₃ : UInt8) :
    (ofRaw b₀ b₁ b₂ b₃).rawBytes = [b₀, b₁, b₂, b₃] := by
  have lo (lo hi : UInt8) : byte (word lo hi) = lo := by
    apply UInt8.toBitVec_inj.mp
    simp only [word_toBitVec, byte_toBitVec]
    ext k below
    interval_cases k <;> simp
  have hi (lo hi : UInt8) : byte (word lo hi >>> 8) = hi := by
    apply UInt8.toBitVec_inj.mp
    simp only [shr8_toBitVec, word_toBitVec, byte_toBitVec]
    ext k below
    interval_cases k <;> simp [BitVec.getElem_sshiftRight]
  rw [rawBytes, ofRaw, lo, hi, lo, hi]

theorem word_bytes : word (byte v) (byte (v >>> 8)) = v := by
  apply Int16.toBitVec_inj.mp
  simp only [shr8_toBitVec, word_toBitVec, byte_toBitVec]
  ext k below
  interval_cases k <;> simp [BitVec.getElem_sshiftRight]

/-- What is left of a sample that was packed. -/
def reduced (s : Complex16) : Complex16 := ⟨low12 s.i, low12 s.q⟩

theorem reduced_of_range {s : Complex16} (low : -2048 ≤ s.i.toInt ∧ -2048 ≤ s.q.toInt)
    (high : s.i.toInt ≤ 2047 ∧ s.q.toInt ≤ 2047) : s.reduced = s := by
  rw [reduced, low12_of_range low.1 high.1, low12_of_range low.2 high.2]

theorem ofPacked_bytes :
    ofPacked (byte s.i) (byte ((s.i >>> 8 &&& (0x0F : Int16)) ||| s.q <<< 4)) (byte (s.q >>> 4)) =
      s.reduced := by
  rw [ofPacked, packed_i, packed_q, reduced]

theorem ofRaw_bytes :
    ofRaw (byte s.i) (byte (s.i >>> 8)) (byte s.q) (byte (s.q >>> 8)) = s := by
  rw [ofRaw, word_bytes, word_bytes]

theorem packedBytes_reduced : s.reduced.packedBytes = s.packedBytes := by
  rw [← ofPacked_bytes, packedBytes_ofPacked, packedBytes]

end Complex16

/-- The loop for packed samples of one channel. It has no result where it reads past the end. -/
def unpackPacked : Bytes → Option (List Complex16)
  | [] => some []
  | b₀ :: b₁ :: b₂ :: rest => (unpackPacked rest).map (Complex16.ofPacked b₀ b₁ b₂ :: ·)
  | _ => none

def unpackPackedMimo : Bytes → Option (List (Complex16 × Complex16))
  | [] => some []
  | b₀ :: b₁ :: b₂ :: b₃ :: b₄ :: b₅ :: rest =>
    (unpackPackedMimo rest).map ((Complex16.ofPacked b₀ b₁ b₂, Complex16.ofPacked b₃ b₄ b₅) :: ·)
  | _ => none

/-- The memory of the samples. Behind the last whole one nothing is told. -/
def unpackRaw : Bytes → List Complex16
  | b₀ :: b₁ :: b₂ :: b₃ :: rest => Complex16.ofRaw b₀ b₁ b₂ b₃ :: unpackRaw rest
  | _ => []

def unpackRawMimo : Bytes → List (Complex16 × Complex16)
  | b₀ :: b₁ :: b₂ :: b₃ :: b₄ :: b₅ :: b₆ :: b₇ :: rest =>
    (Complex16.ofRaw b₀ b₁ b₂ b₃, Complex16.ofRaw b₄ b₅ b₆ b₇) :: unpackRawMimo rest
  | _ => []

/-- What a call of `FPGAPacketPayload2Samples` returns and what it has written for each channel. -/
structure Unpacked where
  collected : Nat
  samples : Fin 2 → List Complex16

namespace Unpacked

def siso (collected : Nat) (samples : List Complex16) : Unpacked where
  collected := collected
  samples
    | 0 => samples
    | 1 => []

def mimo (collected : Nat) (samples : List (Complex16 × Complex16)) : Unpacked where
  collected := collected
  samples
    | 0 => samples.map Prod.fst
    | 1 => samples.map Prod.snd

end Unpacked

def fpgaPacketPayload2Samples (buffer : Bytes) (mimo compressed : Bool) : Option Unpacked :=
  if compressed then
    if mimo then (unpackPackedMimo buffer).map fun l => .mimo l.length l
    else (unpackPacked buffer).map fun l => .siso l.length l
  else if mimo then some (.mimo (buffer.length / 4 / 2) (unpackRawMimo buffer))
  else some (.siso (buffer.length / 4) (unpackRaw buffer))

/-- A value of the type `int`, none where it does not fit. -/
def int? (v : Nat) : Option Int := if v < 2 ^ 31 then some (v : Int) else none

/-- What `Samples2FPGAPacketPayload` returns. The index of the packed bytes and the first
    product are of the type `int`, the products with `sizeof` are not. -/
def samples2FPGAPacketPayloadReturn (samplesCount : Nat) (mimo compressed : Bool) : Option Int :=
  if compressed then int? (samplesCount * if mimo then 6 else 3)
  else if mimo then (int? (samplesCount * 2)).map fun n => toInt32 (n * 4)
  else some (toInt32 (samplesCount * 4))

section Loops

open Complex16

theorem unpackPacked_bytes (l : List Complex16) :
    unpackPacked (l.flatMap packedBytes) = some (l.map reduced) := by
  induction l with
  | nil => rfl
  | cons s rest ih =>
    simp only [List.flatMap_cons, packedBytes, List.cons_append, List.nil_append, unpackPacked]
    rw [ih, ofPacked_bytes]
    rfl

theorem unpackPackedMimo_bytes (l : List (Complex16 × Complex16)) :
    unpackPackedMimo (l.flatMap fun s => s.1.packedBytes ++ s.2.packedBytes) =
      some (l.map fun s => (s.1.reduced, s.2.reduced)) := by
  induction l with
  | nil => rfl
  | cons s rest ih =>
    simp only [List.flatMap_cons, packedBytes, List.cons_append, List.nil_append,
      unpackPackedMimo] at ih ⊢
    rw [ih, ofPacked_bytes, ofPacked_bytes]
    rfl

theorem unpackRaw_bytes (l : List Complex16) : unpackRaw (l.flatMap rawBytes) = l := by
  induction l with
  | nil => rfl
  | cons s rest ih =>
    simp only [List.flatMap_cons, rawBytes, List.cons_append, List.nil_append, unpackRaw] at ih ⊢
    rw [ih, ofRaw_bytes]

theorem unpackRawMimo_bytes (l : List (Complex16 × Complex16)) :
    unpackRawMimo (l.flatMap fun s => s.1.rawBytes ++ s.2.rawBytes) = l := by
  induction l with
  | nil => rfl
  | cons s rest ih =>
    simp only [List.flatMap_cons, rawBytes, List.cons_append, List.nil_append,
      unpackRawMimo] at ih ⊢
    rw [ih, ofRaw_bytes, ofRaw_bytes]

end Loops

def payloadBytes (samplesCount : Nat) (mimo compressed : Bool) : Nat :=
  samplesCount * (if compressed then 3 else 4) * if mimo then 2 else 1

namespace Unpacked

/-- The samples as the buffers of a later call. What was not written is not read there. -/
def buffers (u : Unpacked) : Fin 2 → Buffer Complex16 u.collected := fun ch k =>
  (u.samples ch).getD k .zero

def expected {n : Nat} (samples : Fin 2 → Buffer Complex16 n) (mimo compressed : Bool) :
    Unpacked where
  collected := n
  samples ch :=
    if ch = 0 ∨ mimo = true then
      List.ofFn fun k => if compressed then (samples ch k).reduced else samples ch k
    else []

end Unpacked

section BothWays

variable {n : Nat} {mimo compressed : Bool}

section

variable (samples : Fin 2 → Buffer Complex16 n)
include samples

theorem payload_siso :
    samples2FPGAPacketPayload samples false compressed =
      (List.ofFn (samples 0)).flatMap fun s => if compressed then s.packedBytes else s.rawBytes := by
  unfold samples2FPGAPacketPayload
  cases compressed with
  | true => simp [List.ofFn_eq_map, List.flatMap_map]
  | false => rfl

theorem payload_mimo :
    samples2FPGAPacketPayload samples true compressed =
      (List.ofFn fun k => (samples 0 k, samples 1 k)).flatMap fun s =>
        if compressed then s.1.packedBytes ++ s.2.packedBytes else s.1.rawBytes ++ s.2.rawBytes := by
  unfold samples2FPGAPacketPayload
  cases compressed with
  | true => simp [List.ofFn_eq_map, List.flatMap_map]
  | false => simp [List.ofFn_eq_map, List.flatMap_map]

theorem payload_count (mimo compressed : Bool) :
    (samples2FPGAPacketPayload samples mimo compressed).length =
      payloadBytes n mimo compressed := by
  have sum := congrArg List.length
    (@TxSetup.payload_eq _ ⟨compressed, mimo, 0⟩ samples)
  rw [Records.flatMap_length (TxSetup.frame_length samples), List.length_finRange] at sum
  rw [sum, payloadBytes, TxSetup.chCount, TxSetup.width, Nat.mul_comm, Nat.mul_assoc,
    Nat.mul_comm (ite _ 2 1)]

theorem expected_siso (compressed : Bool) :
    Unpacked.siso n ((List.ofFn (samples 0)).map fun s => if compressed then s.reduced else s) =
      .expected samples false compressed := by
  unfold Unpacked.siso Unpacked.expected
  congr 1
  funext ch
  match ch with
  | 0 => simp [List.ofFn_eq_map]
  | 1 => simp

theorem expected_mimo (compressed : Bool) :
    Unpacked.mimo n ((List.ofFn fun k => (samples 0 k, samples 1 k)).map fun s =>
        if compressed then (s.1.reduced, s.2.reduced) else s) =
      .expected samples true compressed := by
  unfold Unpacked.mimo Unpacked.expected
  congr 1
  funext ch
  match ch with
  | 0 => cases compressed <;> simp [List.ofFn_eq_map]
  | 1 => cases compressed <;> simp [List.ofFn_eq_map]

theorem unpack_payload (mimo compressed : Bool) :
    fpgaPacketPayload2Samples (samples2FPGAPacketPayload samples mimo compressed) mimo compressed =
      some (.expected samples mimo compressed) := by
  have count := payload_count samples mimo compressed
  cases mimo with
  | true =>
    rw [← expected_mimo]
    rw [payload_mimo] at count ⊢
    cases compressed with
    | true =>
      simp only [fpgaPacketPayload2Samples, if_true, unpackPackedMimo_bytes, Option.map_some,
        List.length_map, List.length_ofFn]
    | false =>
      have frames : n * 4 * 2 / 4 / 2 = n := by omega
      simp only [payloadBytes, Bool.false_eq_true, if_true, if_false] at count
      simp only [fpgaPacketPayload2Samples, Bool.false_eq_true, if_true, if_false, count,
        frames, unpackRawMimo_bytes, List.map_id']
  | false =>
    rw [← expected_siso]
    rw [payload_siso] at count ⊢
    cases compressed with
    | true =>
      simp [fpgaPacketPayload2Samples, unpackPacked_bytes]
    | false =>
      have frames : n * 4 * 1 / 4 = n := by omega
      simp only [payloadBytes, Bool.false_eq_true, if_false] at count
      simp only [fpgaPacketPayload2Samples, Bool.false_eq_true, if_false, count, frames,
        unpackRaw_bytes, List.map_id']

theorem buffers_expected {ch : Fin 2} (used : ch = 0 ∨ mimo = true) (k : Fin n) :
    (Unpacked.expected samples mimo compressed).buffers ch k =
      if compressed then (samples ch k).reduced else samples ch k := by
  have inside : k.val < n := k.isLt
  simp only [Unpacked.buffers, Unpacked.expected, if_pos used, List.getD_eq_getElem?_getD,
    List.getElem?_ofFn, dif_pos inside, Option.getD_some]

theorem payload_expected (mimo compressed : Bool) :
    samples2FPGAPacketPayload (Unpacked.expected samples mimo compressed).buffers mimo compressed =
      samples2FPGAPacketPayload samples mimo compressed := by
  have again (ch : Fin 2) (used : ch = 0 ∨ mimo = true) (k : Fin n) :
      TxSetup.encode ⟨compressed, mimo, 0⟩
        ((Unpacked.expected samples mimo compressed).buffers ch k) =
      TxSetup.encode ⟨compressed, mimo, 0⟩ (samples ch k) := by
    rw [buffers_expected samples used, TxSetup.encode, TxSetup.encode]
    cases compressed with
    | true => exact Complex16.packedBytes_reduced _
    | false => rfl
  rw [@TxSetup.payload_eq _ ⟨compressed, mimo, 0⟩ samples,
    @TxSetup.payload_eq _ ⟨compressed, mimo, 0⟩]
  apply List.flatMap_congr
  intro k _
  unfold TxSetup.frame
  rw [again 0 (.inl rfl) k]
  cases mimo with
  | true => rw [again 1 (.inr rfl) k]
  | false => rfl

end

variable {bytes : Bytes}

theorem exists_packed (three : bytes.length = 3) :
    ∃ s : Complex16, s.packedBytes = bytes := by
  obtain ⟨b₀, b₁, b₂, rfl⟩ := List.length_eq_three.mp three
  exact ⟨.ofPacked b₀ b₁ b₂, Complex16.packedBytes_ofPacked b₀ b₁ b₂⟩

theorem exists_raw (four : bytes.length = 4) :
    ∃ s : Complex16, s.rawBytes = bytes := by
  match bytes, four with
  | [b₀, b₁, b₂, b₃], _ => exact ⟨.ofRaw b₀ b₁ b₂ b₃, Complex16.rawBytes_ofRaw b₀ b₁ b₂ b₃⟩

theorem exists_encode (t : TxSetup) (whole : bytes.length = t.width) :
    ∃ s, t.encode s = bytes := by
  unfold TxSetup.width at whole
  unfold TxSetup.encode
  cases packed : t.packed with
  | true =>
    rw [packed] at whole
    exact exists_packed whole
  | false =>
    rw [packed] at whole
    exact exists_raw whole

def frameOf (t : TxSetup) (s : Fin 2 → Complex16) : Bytes :=
  t.encode (s 0) ++ if t.mimo then t.encode (s 1) else []

theorem exists_frame (t : TxSetup) (whole : bytes.length = t.chCount * t.width) :
    ∃ s, frameOf t s = bytes := by
  unfold TxSetup.chCount at whole
  unfold frameOf
  cases mimo : t.mimo with
  | true =>
    rw [mimo, if_pos rfl] at whole
    have front : (bytes.take t.width).length = t.width := by
      rw [List.length_take]
      omega
    have back : (bytes.drop t.width).length = t.width := by
      rw [List.length_drop]
      omega
    obtain ⟨s₀, first⟩ := exists_encode t front
    obtain ⟨s₁, second⟩ := exists_encode t back
    refine ⟨Fin.cases s₀ fun _ => s₁, ?_⟩
    rw [if_pos rfl]
    exact (congrArg₂ _ first second).trans (List.take_append_drop _ _)
  | false =>
    rw [mimo, if_neg Bool.false_ne_true, Nat.one_mul] at whole
    obtain ⟨s₀, first⟩ := exists_encode t whole
    exact ⟨fun _ => s₀, by rw [if_neg Bool.false_ne_true, List.append_nil, first]⟩

theorem exists_samples (mimo compressed : Bool)
    (whole : payloadBytes 1 mimo compressed ∣ bytes.length) :
    ∃ (n : Nat) (samples : Fin 2 → Buffer Complex16 n),
      samples2FPGAPacketPayload samples mimo compressed = bytes := by
  let t : TxSetup := ⟨compressed, mimo, 0⟩
  have size : payloadBytes 1 mimo compressed = t.chCount * t.width := by
    rw [payloadBytes, Nat.one_mul, Nat.mul_comm]
    rfl
  obtain ⟨n, length⟩ := whole
  rw [size] at length
  obtain ⟨l, rfl, same⟩ := Records.exists_flatMap (fun _ => exists_frame t) n length
  refine ⟨l.length, fun ch k => l[k] ch, ?_⟩
  rw [@TxSetup.payload_eq _ t, ← same]
  have frames : l = (List.finRange l.length).map fun k => l[k] := by
    rw [← List.ofFn_eq_map]
    exact List.ofFn_getElem.symm
  conv_rhs => rw [frames, List.flatMap_map]
  rfl

theorem return_of_fits (fits : payloadBytes n mimo compressed < 2 ^ 31) :
    samples2FPGAPacketPayloadReturn n mimo compressed = some (payloadBytes n mimo compressed : Int) := by
  unfold payloadBytes at fits ⊢
  unfold samples2FPGAPacketPayloadReturn int?
  cases compressed with
  | true =>
    cases mimo with
    | true =>
      simp only [if_true] at fits ⊢
      rw [if_pos (by omega), Nat.mul_assoc]
    | false =>
      simp only [if_true, Bool.false_eq_true, if_false, Nat.mul_one] at fits ⊢
      rw [if_pos fits]
  | false =>
    cases mimo with
    | true =>
      simp only [if_true, Bool.false_eq_true, if_false] at fits ⊢
      rw [if_pos (by omega), Option.map_some]
      have product : ((n * 2 : Nat) : Int) * 4 = (n * 4 * 2 : Nat) := by
        push_cast
        ring
      rw [product, toInt32_small fits]
    | false =>
      simp only [Bool.false_eq_true, if_false, Nat.mul_one] at fits ⊢
      exact congrArg some (toInt32_small fits)

end BothWays

/-- As long as an `int` holds the number of bytes, packing and reading back undo each other: what
    was packed comes back as its low 12 bits with their sign. -/
theorem payload_round_trip (mimo compressed : Bool) :
    (∀ (n : Nat) (samples : Fin 2 → Buffer Complex16 n),
      payloadBytes n mimo compressed < 2 ^ 31 →
      (samples2FPGAPacketPayload samples mimo compressed).length = payloadBytes n mimo compressed ∧
      samples2FPGAPacketPayloadReturn n mimo compressed = some (payloadBytes n mimo compressed : Int) ∧
      fpgaPacketPayload2Samples (samples2FPGAPacketPayload samples mimo compressed) mimo compressed =
        some (.expected samples mimo compressed)) ∧
    (∀ s : Complex16, -2048 ≤ s.i.toInt ∧ -2048 ≤ s.q.toInt → s.i.toInt ≤ 2047 ∧ s.q.toInt ≤ 2047 →
      s.reduced = s) ∧
    ∀ bytes : Bytes, payloadBytes 1 mimo compressed ∣ bytes.length → bytes.length < 2 ^ 31 →
      ∃ u, fpgaPacketPayload2Samples bytes mimo compressed = some u ∧
        samples2FPGAPacketPayload u.buffers mimo compressed = bytes ∧
        samples2FPGAPacketPayloadReturn u.collected mimo compressed = some (bytes.length : Int) := by
  have count (n : Nat) (samples : Fin 2 → Buffer Complex16 n) :=
    payload_count samples mimo compressed
  refine ⟨?_, fun s low high => s.reduced_of_range low high, ?_⟩
  · intro n samples fits
    exact ⟨count n samples, return_of_fits fits, unpack_payload samples mimo compressed⟩
  · intro bytes whole fits
    obtain ⟨n, samples, rfl⟩ := exists_samples mimo compressed whole
    rw [count] at fits ⊢
    exact ⟨_, unpack_payload samples mimo compressed, payload_expected samples mimo compressed,
      return_of_fits fits⟩

/-- The number of the bytes is not returned where no `int` holds it. -/
theorem payload_round_trip_fails :
    samples2FPGAPacketPayloadReturn (2 ^ 29) false false = some (-2 ^ 31) ∧
      payloadBytes (2 ^ 29) false false = 2 ^ 31 := by
  decide

theorem payload_round_trip_one : ∃ u,
    fpgaPacketPayload2Samples [0xFF, 0xF7, 0x80] false true = some u ∧
      samples2FPGAPacketPayload u.buffers false true = [0xFF, 0xF7, 0x80] ∧
      samples2FPGAPacketPayloadReturn u.collected false true = some 3 :=
  (payload_round_trip false true).2.2 [0xFF, 0xF7, 0x80] (by decide) (by decide)

end Soapy.Lime
