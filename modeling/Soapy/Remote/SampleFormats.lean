import Soapy.Lib.Bytes

/-! # Sample formats on the wire

The client converts between the format of its user and that of the wire, element by element.
Floats are exact rationals, and one that is cut to an integer of some width keeps its low bits.
-/

namespace Soapy.Remote

open Lib

inductive ConvertTypes where
  | memcpy
  | cf32_cs16
  | cf32_cs12
  | cs16_cs12
  | cs16_cs8
  | cf32_cs8
  | cf32_cu8
deriving DecidableEq

namespace ConvertTypes

/-- An element on the user's side: its bytes, or its real and imaginary part. -/
abbrev User : ConvertTypes → Type
  | .memcpy => Bytes
  | .cf32_cs16 | .cf32_cs12 | .cf32_cs8 | .cf32_cu8 => Rat × Rat
  | .cs16_cs12 | .cs16_cs8 => Int16 × Int16

/-- The size of an element on the wire, where `elemSize` is that of the endpoint. -/
def wireSize (elemSize : Nat) : ConvertTypes → Nat
  | .memcpy => elemSize
  | .cf32_cs16 => 4
  | .cf32_cs12 | .cs16_cs12 => 3
  | .cs16_cs8 | .cf32_cs8 | .cf32_cu8 => 2

end ConvertTypes

/-- A float that is cut to an integer. -/
def truncate (x : Rat) : Int := x.num.tdiv x.den

@[simp] theorem truncate_intCast (m : Int) : truncate m = m := by
  simp [truncate]

section Words

def shortBytes (v : Int16) : Bytes := toLE 2 v.toBitVec.toNat

def shortAt (bs : Bytes) : Int16 := Int16.ofBitVec (BitVec.ofNat 16 (ofLE (bs.take 2)))

theorem shortAt_bytes (v : Int16) (rest : Bytes) : shortAt (shortBytes v ++ rest) = v := by
  have front : (shortBytes v ++ rest).take 2 = shortBytes v := List.take_left' (toLE_length 2 _)
  rw [shortAt, front, shortBytes, ofLE_toLE 2 _ v.toBitVec.isLt, BitVec.ofNat_toNat,
    BitVec.setWidth_eq, Int16.ofBitVec_toBitVec]

@[simp] theorem shortBytes_length (v : Int16) : (shortBytes v).length = 2 := toLE_length 2 _

/-- An `int8_t` as it stands in memory. -/
def charByte (v : Int8) : UInt8 := v.toUInt8

def charAt (bs : Bytes) (i : Nat) : Int8 := (bs.getD i 0).toInt8

/-- Two words of which the high 12 bits are kept, as three bytes. -/
def pack12 (i q : BitVec 16) : Bytes :=
  [.ofBitVec ((i >>> 4).setWidth 8), .ofBitVec ((q &&& 0xf0#16 ||| i >>> 12).setWidth 8),
    .ofBitVec ((q >>> 8).setWidth 8)]

/-- The bytes at the front of some others as two words. -/
def unpack12 (bs : Bytes) : BitVec 16 × BitVec 16 :=
  let part0 := (bs.getD 0 0).toBitVec.setWidth 16
  let part1 := (bs.getD 1 0).toBitVec.setWidth 16
  let part2 := (bs.getD 2 0).toBitVec.setWidth 16
  (part1 <<< 12 ||| part0 <<< 4, part2 <<< 8 ||| part1 &&& 0xf0#16)

theorem unpack12_pack12 (i q : BitVec 16) (rest : Bytes) :
    unpack12 (pack12 i q ++ rest) = (i &&& 0xfff0#16, q &&& 0xfff0#16) := by
  have real_high : ((q &&& 0xf0#16 ||| i >>> 12).setWidth 8).setWidth 16 <<< 12 =
      i &&& 0xf000#16 := by
    ext k below
    interval_cases k <;> simp
  have real_low : ((i >>> 4).setWidth 8).setWidth 16 <<< 4 = i &&& 0x0ff0#16 := by
    ext k below
    interval_cases k <;> simp
  have imag_high : ((q >>> 8).setWidth 8).setWidth 16 <<< 8 = q &&& 0xff00#16 := by
    ext k below
    interval_cases k <;> simp
  have imag_low : ((q &&& 0xf0#16 ||| i >>> 12).setWidth 8).setWidth 16 &&& 0xf0#16 =
      q &&& 0x00f0#16 := by
    ext k below
    interval_cases k <;> simp
  have real : (i &&& 0xf000#16) ||| (i &&& 0x0ff0#16) = i &&& 0xfff0#16 := by
    rw [← BitVec.and_or_distrib_left]
    rfl
  have imag : (q &&& 0xff00#16) ||| (q &&& 0x00f0#16) = q &&& 0xfff0#16 := by
    rw [← BitVec.and_or_distrib_left]
    rfl
  have words : unpack12 (pack12 i q ++ rest) =
      (((q &&& 0xf0#16 ||| i >>> 12).setWidth 8).setWidth 16 <<< 12 |||
        ((i >>> 4).setWidth 8).setWidth 16 <<< 4,
      ((q >>> 8).setWidth 8).setWidth 16 <<< 8 |||
        ((q &&& 0xf0#16 ||| i >>> 12).setWidth 8).setWidth 16 &&& 0xf0#16) := rfl
  rw [words, real_high, real_low, imag_high, imag_low, real, imag]

theorem pack12_unpack12 (part0 part1 part2 : UInt8) (rest : Bytes) :
    pack12 (unpack12 ([part0, part1, part2] ++ rest)).1
      (unpack12 ([part0, part1, part2] ++ rest)).2 = [part0, part1, part2] := by
  have first : ((part1.toBitVec.setWidth 16 <<< 12 ||| part0.toBitVec.setWidth 16 <<< 4) >>>
      4).setWidth 8 = part0.toBitVec := by
    ext k below
    interval_cases k <;> simp
  have second : ((part2.toBitVec.setWidth 16 <<< 8 ||| part1.toBitVec.setWidth 16 &&& 0xf0#16) &&&
      0xf0#16 ||| (part1.toBitVec.setWidth 16 <<< 12 ||| part0.toBitVec.setWidth 16 <<< 4) >>>
        12).setWidth 8 = part1.toBitVec := by
    ext k below
    interval_cases k <;> simp
  have third : ((part2.toBitVec.setWidth 16 <<< 8 ||| part1.toBitVec.setWidth 16 &&& 0xf0#16) >>>
      8).setWidth 8 = part2.toBitVec := by
    ext k below
    interval_cases k <;> simp
  have words : unpack12 ([part0, part1, part2] ++ rest) =
      (part1.toBitVec.setWidth 16 <<< 12 ||| part0.toBitVec.setWidth 16 <<< 4,
        part2.toBitVec.setWidth 16 <<< 8 ||| part1.toBitVec.setWidth 16 &&& 0xf0#16) := rfl
  rw [words, pack12, first, second, third]

end Words

namespace ConvertTypes

/-- One element of `convertSendBuffs`. -/
def send (scaleFactor : Rat) : (t : ConvertTypes) → t.User → Bytes
  | .memcpy, bs => bs
  | .cf32_cs16, (i, q) =>
    let scale := scaleFactor
    shortBytes (.ofInt (truncate (i * scale))) ++ shortBytes (.ofInt (truncate (q * scale)))
  | .cf32_cs12, (i, q) =>
    let scale := 16 * scaleFactor
    pack12 (BitVec.ofInt 16 (truncate (i * scale))) (BitVec.ofInt 16 (truncate (q * scale)))
  | .cs16_cs12, (i, q) => pack12 i.toBitVec q.toBitVec
  | .cs16_cs8, (i, q) => [charByte i.toInt8, charByte q.toInt8]
  | .cf32_cs8, (i, q) =>
    let scale := scaleFactor
    [charByte (.ofInt (truncate (i * scale))), charByte (.ofInt (truncate (q * scale)))]
  | .cf32_cu8, (i, q) =>
    let scale := scaleFactor
    [charByte (.ofInt ((Int8.ofInt (truncate (i * scale))).toInt + 127)),
      charByte (.ofInt ((Int8.ofInt (truncate (q * scale))).toInt + 127))]

/-- One element of `convertRecvBuffs`, at the front of some bytes. -/
def recv (scaleFactor : Rat) (elemSize : Nat) : (t : ConvertTypes) → Bytes → t.User
  | .memcpy, bs => bs.take elemSize
  | .cf32_cs16, bs =>
    let scale := 1 / scaleFactor
    ((shortAt bs).toInt * scale, (shortAt (bs.drop 2)).toInt * scale)
  | .cf32_cs12, bs =>
    let scale := 1 / 16 / scaleFactor
    ((unpack12 bs).1.toInt * scale, (unpack12 bs).2.toInt * scale)
  | .cs16_cs12, bs => (.ofBitVec (unpack12 bs).1, .ofBitVec (unpack12 bs).2)
  | .cs16_cs8, bs => ((charAt bs 0).toInt16, (charAt bs 1).toInt16)
  | .cf32_cs8, bs =>
    let scale := 1 / scaleFactor
    ((charAt bs 0).toInt * scale, (charAt bs 1).toInt * scale)
  | .cf32_cu8, bs =>
    let scale := 1 / scaleFactor
    (((charAt bs 0).toInt - 127 : Int) * scale, ((charAt bs 1).toInt - 127 : Int) * scale)

/-- The loop of `convertRecvBuffs` over the elements of one channel. -/
def recvElems (scaleFactor : Rat) (elemSize : Nat) (t : ConvertTypes) : Nat → Bytes → List t.User
  | 0, _ => []
  | n + 1, bs =>
    t.recv scaleFactor elemSize bs ::
      t.recvElems scaleFactor elemSize n (bs.drop (t.wireSize elemSize))

end ConvertTypes

/-- `ClientStreamData::convertSendBuffs`, the bytes for each channel. -/
def convertSendBuffs (t : ConvertTypes) (scaleFactor : Rat) (buffs : List (List t.User))
    (numElems : Nat) : List Bytes :=
  buffs.map fun buff => (buff.take numElems).flatMap (t.send scaleFactor)

/-- `ClientStreamData::convertRecvBuffs`, from the bytes at the pointer of each channel. -/
def convertRecvBuffs (t : ConvertTypes) (scaleFactor : Rat) (elemSize : Nat)
    (recvBuffs : List Bytes) (numElems : Nat) : List (List t.User) :=
  recvBuffs.map (t.recvElems scaleFactor elemSize numElems)

/-- The value is an integer of a range. -/
def IntIn (x : Rat) (low high : Int) : Prop := ∃ m : Int, x = m ∧ low ≤ m ∧ m ≤ high

namespace ConvertTypes

/-- The elements that a format of the wire has room for. (A float is cut to an unsigned word for
    `CS12`, which is not defined for the negative ones.) -/
def Holds (scaleFactor : Rat) (elemSize : Nat) : (t : ConvertTypes) → t.User → Prop
  | .memcpy, bs => bs.length = elemSize
  | .cf32_cs16, (i, q) =>
    IntIn (i * scaleFactor) (-32768) 32767 ∧ IntIn (q * scaleFactor) (-32768) 32767
  | .cf32_cs12, (i, q) => IntIn (i * scaleFactor) 0 2047 ∧ IntIn (q * scaleFactor) 0 2047
  | .cs16_cs12, (i, q) =>
    i.toBitVec &&& 0xfff0#16 = i.toBitVec ∧ q.toBitVec &&& 0xfff0#16 = q.toBitVec
  | .cs16_cs8, (i, q) => (-128 ≤ i.toInt ∧ i.toInt ≤ 127) ∧ -128 ≤ q.toInt ∧ q.toInt ≤ 127
  | .cf32_cs8, (i, q) => IntIn (i * scaleFactor) (-128) 127 ∧ IntIn (q * scaleFactor) (-128) 127
  | .cf32_cu8, (i, q) => IntIn (i * scaleFactor) (-127) 127 ∧ IntIn (q * scaleFactor) (-127) 127

/-- An unsigned byte above 127 is read as a negative one. -/
def Survives (scaleFactor : Rat) : (t : ConvertTypes) → t.User → Prop
  | .cf32_cu8, (i, q) => i * scaleFactor ≤ 0 ∧ q * scaleFactor ≤ 0
  | .memcpy, _ | .cf32_cs16, _ | .cf32_cs12, _ | .cs16_cs12, _ | .cs16_cs8, _ | .cf32_cs8, _ => True

end ConvertTypes

section Elements

variable {s : Rat} {elemSize : Nat}

variable {x : Rat}

theorem scaled_back (positive : 0 < s) {m : Int} (scaled : x * s = m) (n : Int) :
    (n : Rat) * (1 / s) = x ↔ n = m := by
  have nonzero : s ≠ 0 := ne_of_gt positive
  constructor
  · intro back
    have same : (n : Rat) = m := by
      rw [← scaled, ← back]
      field_simp
    exact_mod_cast same
  · intro same
    rw [same, ← scaled]
    field_simp

theorem short_back (positive : 0 < s) (room : IntIn (x * s) (-32768) 32767) :
    ((Int16.ofInt (truncate (x * s))).toInt : Rat) * (1 / s) = x := by
  obtain ⟨m, scaled, low, high⟩ := room
  rw [scaled, truncate_intCast, Int16.toInt_ofInt_of_le low (by omega), scaled_back positive scaled]

theorem char_back (positive : 0 < s) (room : IntIn (x * s) (-128) 127) :
    ((Int8.ofInt (truncate (x * s))).toInt : Rat) * (1 / s) = x := by
  obtain ⟨m, scaled, low, high⟩ := room
  rw [scaled, truncate_intCast, Int8.toInt_ofInt_of_le low (by omega), scaled_back positive scaled]

theorem uchar_back (positive : 0 < s) (room : IntIn (x * s) (-127) 127) :
    (((Int8.ofInt ((Int8.ofInt (truncate (x * s))).toInt + 127)).toInt - 127 : Int) : Rat) *
      (1 / s) = x ↔ x * s ≤ 0 := by
  obtain ⟨m, scaled, low, high⟩ := room
  have cut : (Int8.ofInt m).toInt = m := Int8.toInt_ofInt_of_le (by omega) (by omega)
  rw [scaled, truncate_intCast, cut, scaled_back positive scaled, Int8.toInt_ofInt]
  change Int.bmod (m + 127) 256 - 127 = m ↔ (m : Rat) ≤ 0
  rw [Int.bmod_def, ← Int.cast_zero, Int.cast_le]
  omega

theorem word_back (positive : 0 < s) (room : IntIn (x * s) 0 2047) :
    ((BitVec.ofInt 16 (truncate (x * (16 * s))) &&& 0xfff0#16).toInt : Rat) * (1 / 16 / s) = x := by
  obtain ⟨m, scaled, low, high⟩ := room
  have times : x * (16 * s) = ((16 * m : Int) : Rat) := by
    rw [mul_left_comm, scaled]
    push_cast
    ring
  have cleared : BitVec.ofInt 16 (16 * m) &&& 0xfff0#16 = BitVec.ofInt 16 (16 * m) := by
    obtain ⟨n, rfl⟩ := Int.eq_ofNat_of_zero_le low
    have shifted : BitVec.ofInt 16 (16 * n) = BitVec.ofNat 16 n <<< 4 := by
      apply BitVec.eq_of_toNat_eq
      have whole : (16 : Int) * n = ((16 * n : Nat) : Int) := by push_cast; rfl
      rw [whole, BitVec.ofInt_natCast, BitVec.toNat_shiftLeft, BitVec.toNat_ofNat,
        BitVec.toNat_ofNat, Nat.shiftLeft_eq, Nat.mod_mul_mod, Nat.mul_comm]
    rw [shifted]
    ext k below
    interval_cases k <;> simp
  have value : (BitVec.ofInt 16 (16 * m)).toInt = 16 * m :=
    BitVec.toInt_ofInt_eq_self (by decide) (by omega) (by omega)
  rw [times, truncate_intCast, cleared, value]
  have back := (scaled_back positive scaled m).mpr rfl
  push_cast
  rw [← back]
  field_simp

theorem cs8_back {v : Int16} (low : -128 ≤ v.toInt) (high : v.toInt ≤ 127) :
    v.toInt8.toInt16 = v := by
  rw [← Int16.toInt_inj, Int8.toInt_toInt16, Int16.toInt_toInt8, Int.bmod_def]
  omega

@[simp] theorem charAt_bytes (v : Int8) (bs rest : Bytes) :
    charAt (bs ++ charByte v :: rest) bs.length = v := by
  simp [charAt, charByte]

theorem charAt_first (a b : Int8) (rest : Bytes) :
    charAt ([charByte a, charByte b] ++ rest) 0 = a := charAt_bytes a [] _

theorem charAt_second (a b : Int8) (rest : Bytes) :
    charAt ([charByte a, charByte b] ++ rest) 1 = b := charAt_bytes b [charByte a] _

variable {t : ConvertTypes}

theorem wire_length {u : t.User} (holds : t.Holds s elemSize u) :
    (t.send s u).length = t.wireSize elemSize := by
  cases t with
  | memcpy => exact holds
  | cf32_cs16 => simp [ConvertTypes.send, ConvertTypes.wireSize]
  | cf32_cs12 | cs16_cs12 | cs16_cs8 | cf32_cs8 | cf32_cu8 => rfl

theorem elem_back_iff (positive : 0 < s) {u : t.User}
    (holds : t.Holds s elemSize u) (rest : Bytes) :
    t.recv s elemSize (t.send s u ++ rest) = u ↔ t.Survives s u := by
  cases t with
  | memcpy =>
    have whole : (u ++ rest).take elemSize = u := List.take_left' holds
    simp only [ConvertTypes.recv, ConvertTypes.send, whole, ConvertTypes.Survives]
  | cf32_cs16 =>
    obtain ⟨i, q⟩ := u
    have second : (shortBytes (.ofInt (truncate (i * s))) ++
        (shortBytes (.ofInt (truncate (q * s))) ++ rest)).drop 2 =
          shortBytes (.ofInt (truncate (q * s))) ++ rest :=
      List.drop_left' (shortBytes_length _)
    simp only [ConvertTypes.recv, ConvertTypes.send, List.append_assoc, second, shortAt_bytes,
      short_back positive holds.1, short_back positive holds.2, ConvertTypes.Survives]
  | cf32_cs12 =>
    obtain ⟨i, q⟩ := u
    simp only [ConvertTypes.recv, ConvertTypes.send, unpack12_pack12,
      word_back positive holds.1, word_back positive holds.2, ConvertTypes.Survives]
  | cs16_cs12 =>
    obtain ⟨i, q⟩ := u
    obtain ⟨real, imag⟩ := holds
    simp [ConvertTypes.recv, ConvertTypes.send, unpack12_pack12, real, imag,
        Int16.ofBitVec_toBitVec, ConvertTypes.Survives]
  | cs16_cs8 =>
    obtain ⟨i, q⟩ := u
    simp only [ConvertTypes.recv, ConvertTypes.send, charAt_first, charAt_second,
      cs8_back holds.1.1 holds.1.2, cs8_back holds.2.1 holds.2.2, ConvertTypes.Survives]
  | cf32_cs8 =>
    obtain ⟨i, q⟩ := u
    simp only [ConvertTypes.recv, ConvertTypes.send, charAt_first, charAt_second,
      char_back positive holds.1, char_back positive holds.2, ConvertTypes.Survives]
  | cf32_cu8 =>
    obtain ⟨i, q⟩ := u
    simp only [ConvertTypes.recv, ConvertTypes.send, charAt_first, charAt_second, Prod.mk.injEq,
      uchar_back positive holds.1, uchar_back positive holds.2, ConvertTypes.Survives]

theorem elems_back_iff (positive : 0 < s) {us : List t.User}
    (holds : ∀ u ∈ us, t.Holds s elemSize u) (rest : Bytes) :
    t.recvElems s elemSize us.length (us.flatMap (t.send s) ++ rest) = us ↔
      ∀ u ∈ us, t.Survives s u := by
  induction us with
  | nil => simp [ConvertTypes.recvElems]
  | cons u us ih =>
    rw [List.forall_mem_cons] at holds
    have behind : ((t.send s u ++ (us.flatMap (t.send s) ++ rest)).drop (t.wireSize elemSize)) =
        us.flatMap (t.send s) ++ rest := List.drop_left' (wire_length holds.1)
    rw [List.flatMap_cons, List.append_assoc, List.length_cons, ConvertTypes.recvElems, behind,
      List.cons.injEq, elem_back_iff positive holds.1, ih holds.2, List.forall_mem_cons]

theorem cs12_packed (n : Nat) (bs : Bytes) (whole : bs.length = 3 * n) :
    (ConvertTypes.cs16_cs12.recvElems s elemSize n bs).flatMap
      (ConvertTypes.cs16_cs12.send s) = bs := by
  induction n generalizing bs with
  | zero =>
    rw [List.eq_nil_of_length_eq_zero whole]
    rfl
  | succ n ih =>
    cases bs with
    | nil => cases whole
    | cons part0 bs =>
      cases bs with
      | nil => simp at whole; omega
      | cons part1 bs =>
        cases bs with
        | nil => simp at whole; omega
        | cons part2 bs =>
          have rest : bs.length = 3 * n := by
            simp only [List.length_cons] at whole
            omega
          rw [ConvertTypes.recvElems, List.flatMap_cons]
          change pack12 (unpack12 ([part0, part1, part2] ++ bs)).1
            (unpack12 ([part0, part1, part2] ++ bs)).2 ++
              (ConvertTypes.cs16_cs12.recvElems s elemSize n bs).flatMap _ = _
          rw [pack12_unpack12, ih bs rest]
          rfl

end Elements

theorem recvElems_length (t : ConvertTypes) (s : Rat) (elemSize n : Nat) (bs : Bytes) :
    (t.recvElems s elemSize n bs).length = n := by
  induction n generalizing bs with
  | zero => rfl
  | succ n ih => exact congrArg (· + 1) (ih _)

/-- Of the samples that the wire has room for, all come back from the wire but the positive ones of
    `CU8`. And any bytes of `CS12` come back when they were unpacked. -/
theorem formats_round_trip_iff (t : ConvertTypes) {s : Rat} (positive : 0 < s) (elemSize : Nat)
    (buffs : List (List t.User)) (numElems : Nat) (long : ∀ buff ∈ buffs, numElems ≤ buff.length)
    (holds : ∀ buff ∈ buffs, ∀ u ∈ buff.take numElems, t.Holds s elemSize u) :
    (convertRecvBuffs t s elemSize (convertSendBuffs t s buffs numElems) numElems =
      buffs.map (fun buff => buff.take numElems) ↔
        ∀ buff ∈ buffs, ∀ u ∈ buff.take numElems, t.Survives s u) ∧
    ∀ wire : List Bytes, (∀ bs ∈ wire, bs.length = 3 * numElems) →
      convertSendBuffs .cs16_cs12 s (convertRecvBuffs .cs16_cs12 s elemSize wire numElems)
        numElems = wire := by
  constructor
  · unfold convertRecvBuffs convertSendBuffs
    rw [List.map_map, List.map_inj_left]
    refine forall₂_congr fun buff mem => ?_
    have count : (buff.take numElems).length = numElems := List.length_take_of_le (long buff mem)
    have back := elems_back_iff positive (holds buff mem) []
    rw [count, List.append_nil] at back
    exact back
  · intro wire whole
    unfold convertRecvBuffs convertSendBuffs
    rw [List.map_map]
    conv_rhs => rw [← List.map_id wire]
    apply List.map_congr_left
    intro bs mem
    have count := recvElems_length .cs16_cs12 s elemSize numElems bs
    rw [Function.comp_apply, List.take_of_length_le (Nat.le_of_eq count),
      cs12_packed numElems bs (whole bs mem)]
    rfl

theorem cs8_half_back :
    (convertRecvBuffs .cf32_cs8 128 2 (convertSendBuffs .cf32_cs8 128 [[(1 / 2, -1)]] 1) 1 =
      [[(1 / 2, -1)]].map (fun buff => buff.take 1) ↔
        ∀ buff ∈ [[((1 / 2, -1) : Rat × Rat)]], ∀ u ∈ buff.take 1,
          ConvertTypes.cf32_cs8.Survives 128 u) ∧
    ∀ wire : List Bytes, (∀ bs ∈ wire, bs.length = 3 * 1) →
      convertSendBuffs .cs16_cs12 128 (convertRecvBuffs .cs16_cs12 128 2 wire 1) 1 = wire := by
  apply formats_round_trip_iff .cf32_cs8 (by norm_num) 2 [[(1 / 2, -1)]] 1
  · simp
  · intro buff mem u here
    rw [List.mem_singleton] at mem
    rw [mem, List.take_one, List.head?_cons, Option.toList_some, List.mem_singleton] at here
    rw [here]
    exact ⟨⟨64, by norm_num⟩, ⟨-128, by norm_num⟩⟩

/-- One step above zero comes back as 255 steps below. -/
theorem cu8_step_lost :
    ¬ ∀ (s : Rat) (buffs : List (List (Rat × Rat))) (numElems : Nat), 0 < s →
      (∀ buff ∈ buffs, numElems ≤ buff.length) →
      (∀ buff ∈ buffs, ∀ u ∈ buff.take numElems, ConvertTypes.cf32_cu8.Holds s 2 u) →
      convertRecvBuffs .cf32_cu8 s 2 (convertSendBuffs .cf32_cu8 s buffs numElems) numElems =
        buffs.map (fun buff => buff.take numElems) := by
  intro back
  have room : ConvertTypes.cf32_cu8.Holds 1 2 (1, 0) :=
    ⟨⟨1, by norm_num⟩, ⟨0, by norm_num⟩⟩
  have same := back 1 [[(1, 0)]] 1 (by norm_num) (by simp) (by simpa using room)
  have survives := (elem_back_iff (t := .cf32_cu8) (by norm_num) room []).mp (by
    rw [List.append_nil]
    exact List.singleton_inj.mp (List.singleton_inj.mp same))
  have above := survives.1
  norm_num at above

end Soapy.Remote
