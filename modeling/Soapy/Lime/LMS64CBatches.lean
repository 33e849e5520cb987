import Soapy.Lime.LMS64C

/-! # Batches of LMS64C packets

The packets of a request carry what it has to send, in order, and the answers to them
join to the answers to its blocks. This holds as long as the size of all its packets is an
`int`; past that no packets are made, or too few.
-/

namespace Soapy.Lime

open Lib LMS64C

namespace LMS64C

/-- `max(1, ceil)` of the blocks over those in a packet. -/
def packetCount (full blocks : Nat) : Nat := max 1 ((blocks + full - 1) / full)

/-- The size of the packets is an `int`. -/
def Fits (full blocks : Nat) : Prop := (64 * packetCount full blocks : Nat) ≤ INT_MAX

instance (full blocks : Nat) : Decidable (Fits full blocks) := Int.decLe _ _

theorem byteBlockRatio_pos (cmd : UInt8) : 0 < byteBlockRatio cmd := by
  unfold byteBlockRatio
  split_ifs <;> omega

theorem byteBlockRatio_le (cmd : UInt8) : byteBlockRatio cmd ≤ 4 := by
  unfold byteBlockRatio
  split_ifs <;> omega

theorem dataLength_le (cmd : UInt8) : dataLength cmd ≤ maxDataLength := by
  unfold dataLength maxDataLength
  dsimp only
  split_ifs <;> omega

theorem dataLength_ge (cmd : UInt8) : 4 ≤ dataLength cmd := by
  unfold dataLength maxDataLength
  dsimp only
  split_ifs <;> omega

theorem blocksPerPacket_pos (cmd : UInt8) : 0 < blocksPerPacket cmd :=
  Nat.div_pos ((byteBlockRatio_le cmd).trans (dataLength_ge cmd)) (byteBlockRatio_pos cmd)

theorem blocksPerPacket_le (cmd : UInt8) : blocksPerPacket cmd ≤ 56 :=
  (Nat.div_le_self _ _).trans (dataLength_le cmd)

theorem block_bytes_le (cmd : UInt8) : blocksPerPacket cmd * byteBlockRatio cmd ≤ dataLength cmd :=
  Nat.div_mul_le_self _ _

theorem toUInt8_toNat {n : Nat} (small : n ≤ 56) : (toUInt8 n).toNat = n := by
  have mod : ((n : Int) % 256).toNat = n := by omega
  rw [toUInt8, mod, UInt8.toNat_ofNat']
  omega

end LMS64C

theorem padded_eq {payload : List UInt8} (fits : payload.length ≤ maxDataLength) :
    padded payload = payload ++ List.replicate (maxDataLength - payload.length) 0 := by
  rw [padded, List.take_append, List.take_of_length_le fits, List.take_replicate,
    Nat.min_eq_left (by omega)]

namespace GenericPacket

variable {pkt : GenericPacket} {packets : List ProtocolLMS64C} {payload : List UInt8}

structure Carries (pkt : GenericPacket) (p : ProtocolLMS64C) (payload : List UInt8) : Prop where
  cmd : p.cmd = pkt.cmd
  data : p.data = padded payload
  counted : p.blockCount.toNat * byteBlockRatio pkt.cmd = payload.length
  within : payload.length ≤ dataLength pkt.cmd

inductive Batches (pkt : GenericPacket) : List ProtocolLMS64C → List UInt8 → Prop
  | last {p payload} (carries : pkt.Carries p payload) : Batches pkt [p] payload
  | more {p payload packets rest} (carries : pkt.Carries p payload)
      (full : payload.length = blocksPerPacket pkt.cmd * byteBlockRatio pkt.cmd)
      (batches : Batches pkt packets rest) : Batches pkt (p :: packets) (payload ++ rest)

/-- By induction on the packets: `n` of them are full, and there are blocks for one more. -/
theorem packLoop_batches {n blocks : Nat} {source : List UInt8}
    (size : source.length = blocks * byteBlockRatio pkt.cmd)
    (enough : blocks ≤ (n + 1) * blocksPerPacket pkt.cmd)
    (needed : n = 0 ∨ n * blocksPerPacket pkt.cmd < blocks) :
    pkt.Batches (pkt.packLoop (n + 1) blocks source) source := by
  induction n generalizing blocks source with
  | zero =>
    have few : blocks ≤ blocksPerPacket pkt.cmd := by simpa using enough
    have whole : source.length ≤ blocksPerPacket pkt.cmd * byteBlockRatio pkt.cmd := by
      rw [size]
      exact Nat.mul_le_mul_right _ few
    have single : ¬ (blocks : Int) > blocksPerPacket pkt.cmd := by omega
    apply Batches.last
    refine ⟨rfl, ?_, ?_, whole.trans (block_bytes_le _)⟩
    · simp only [List.take_of_length_le whole]
    · simp only [if_neg single, toUInt8_toNat (few.trans (blocksPerPacket_le _)), size]
  | succ n ih =>
    have many : (n + 1) * blocksPerPacket pkt.cmd < blocks := needed.resolve_left (by omega)
    have positive := blocksPerPacket_pos pkt.cmd
    have step : (n + 1) * blocksPerPacket pkt.cmd =
        n * blocksPerPacket pkt.cmd + blocksPerPacket pkt.cmd := Nat.succ_mul _ _
    have next : (n + 1 + 1) * blocksPerPacket pkt.cmd =
        (n + 1) * blocksPerPacket pkt.cmd + blocksPerPacket pkt.cmd := Nat.succ_mul _ _
    have more : (blocks : Int) > blocksPerPacket pkt.cmd := by omega
    have bytes : blocksPerPacket pkt.cmd * byteBlockRatio pkt.cmd ≤ source.length := by
      rw [size]
      exact Nat.mul_le_mul_right _ (by omega)
    have rest : (source.drop (blocksPerPacket pkt.cmd * byteBlockRatio pkt.cmd)).length =
        (blocks - blocksPerPacket pkt.cmd) * byteBlockRatio pkt.cmd := by
      rw [List.length_drop, size, Nat.sub_mul]
    have left : (blocks : Int) - blocksPerPacket pkt.cmd =
        (blocks - blocksPerPacket pkt.cmd : Nat) := by omega
    have later := ih rest (by omega) (.inr (by omega))
    rw [packLoop]
    simp only [if_pos more, left]
    conv => arg 3; rw [← List.take_append_drop (blocksPerPacket pkt.cmd * byteBlockRatio pkt.cmd) source]
    apply Batches.more ?_ ?_ later
    · refine ⟨rfl, rfl, ?_, ?_⟩
      · have small := blocksPerPacket_le pkt.cmd
        rw [List.length_take, Nat.min_eq_left bytes, UInt8.toNat_ofNat']
        congr 1
        omega
      · rw [List.length_take, Nat.min_eq_left bytes]
        exact block_bytes_le _
    · rw [List.length_take, Nat.min_eq_left bytes]

theorem packLoop_length (pkt : GenericPacket) (n : Nat) (blockCount : Int) (source : List UInt8) :
    (pkt.packLoop n blockCount source).length = n := by
  induction n generalizing blockCount source with
  | zero => rfl
  | succ n ih => simp [packLoop, ih]

theorem packetCount_spec {full : Nat} (positive : 0 < full) (blocks : Nat) :
    blocks ≤ packetCount full blocks * full ∧
      (packetCount full blocks = 1 ∨ (packetCount full blocks - 1) * full < blocks) ∧
      1 ≤ packetCount full blocks := by
  have upper := Nat.lt_mul_div_succ (blocks + full - 1) positive
  have lower := Nat.div_mul_le_self (blocks + full - 1) full
  rw [Nat.mul_comm, Nat.succ_mul] at upper
  unfold packetCount
  by_cases one : (blocks + full - 1) / full ≤ 1
  · rw [Nat.max_eq_left one]
    have few : (blocks + full - 1) / full * full ≤ full := by
      calc (blocks + full - 1) / full * full ≤ 1 * full := Nat.mul_le_mul_right _ one
        _ = full := Nat.one_mul _
    exact ⟨by omega, .inl rfl, Nat.le_refl 1⟩
  · rw [Nat.max_eq_right (by omega)]
    have minus : ((blocks + full - 1) / full - 1) * full = (blocks + full - 1) / full * full - full :=
      by rw [Nat.sub_mul, Nat.one_mul]
    have two : 2 * full ≤ (blocks + full - 1) / full * full := Nat.mul_le_mul_right _ (by omega)
    exact ⟨by omega, .inr (by omega), by omega⟩

theorem ceil_eq {full : Nat} (positive : 0 < full) (blocks : Nat) :
    (blocks + full - 1) / full = blocks / full + if blocks % full ≠ 0 then 1 else 0 := by
  have parts := Nat.div_add_mod blocks full
  have small := Nat.mod_lt blocks positive
  by_cases even : blocks % full = 0
  · rw [if_neg (not_not.mpr even)]
    rw [Nat.div_eq_of_lt_le]
    · rw [Nat.add_zero, Nat.mul_comm]
      omega
    · rw [Nat.add_zero, Nat.succ_mul, Nat.mul_comm]
      omega
  · rw [if_pos even, Nat.div_eq_of_lt_le]
    · rw [Nat.succ_mul, Nat.mul_comm]
      omega
    · rw [Nat.succ_mul, Nat.succ_mul, Nat.mul_comm]
      omega

theorem packetsFor_nat {full : Nat} (positive : 0 < full) (blocks : Nat) :
    packetsFor full blocks = ((blocks + full - 1) / full : Nat) := by
  rw [packetsFor, ceil_eq positive, ← Int.ofNat_tdiv, ← Int.ofNat_tmod, Nat.cast_add]
  simp only [ne_eq, Int.natCast_eq_zero]
  split_ifs with even
  · rfl
  · rfl

theorem bufLen_some {packets : Nat} (fits : (64 * max 1 packets : Nat) ≤ INT_MAX) :
    bufLen packets = some ((64 * max 1 packets : Nat) : Int) := by
  have whole : INT_MAX = 2147483647 := rfl
  have unit : (pktLength : Int) = 64 := rfl
  simp only [bufLen, unit]
  rw [if_neg (by omega)]
  by_cases none : packets = 0
  · rw [if_pos (by omega), none]
    rfl
  · rw [if_neg (by omega), Nat.max_eq_right (Nat.pos_of_ne_zero none), Nat.mul_comm]
    rfl

theorem bufLen_le {packets length : Int} (made : bufLen packets = some length) :
    length ≤ INT_MAX := by
  simp only [bufLen] at made
  split_ifs at made with range none
  · cases made
    decide
  · cases made
    rw [not_or, not_lt, not_lt] at range
    exact range.2

def blocks (pkt : GenericPacket) : Nat := pkt.outBuffer.length / byteBlockRatio pkt.cmd

def count (pkt : GenericPacket) : Nat := packetCount (blocksPerPacket pkt.cmd) pkt.blocks

theorem blockCount_eq (fits : Fits (blocksPerPacket pkt.cmd) pkt.blocks) :
    pkt.blockCount = pkt.blocks := by
  apply toInt32_small
  have enough := (packetCount_spec (blocksPerPacket_pos pkt.cmd) pkt.blocks).1
  have few := Nat.mul_le_mul_left pkt.count (blocksPerPacket_le pkt.cmd)
  have whole : INT_MAX = 2147483647 := rfl
  unfold Fits at fits
  unfold count at few
  unfold blocks at *
  omega

theorem preparePacket_fits (whole : byteBlockRatio pkt.cmd ∣ pkt.outBuffer.length)
    (fits : Fits (blocksPerPacket pkt.cmd) pkt.blocks) :
    ∃ packets, pkt.preparePacket = some packets ∧ pkt.Batches packets pkt.outBuffer ∧
      packets.length = pkt.count := by
  have positive := blocksPerPacket_pos pkt.cmd
  obtain ⟨enough, needed, some⟩ := packetCount_spec positive pkt.blocks
  have number : pkt.count - 1 + 1 = pkt.count := Nat.sub_add_cancel some
  have length : bufLen (packetsFor (blocksPerPacket pkt.cmd) pkt.blockCount) =
      .some ((64 * pkt.count : Nat) : Int) := by
    rw [blockCount_eq fits, packetsFor_nat positive]
    exact bufLen_some fits
  refine ⟨pkt.packLoop (pkt.count - 1 + 1) pkt.blocks pkt.outBuffer, ?_, ?_, ?_⟩
  · rw [preparePacket, length, Option.bind_some, if_neg (by omega), blockCount_eq fits, number,
      Int.toNat_natCast, pktLength, Nat.mul_div_cancel_left _ (by omega)]
  · apply packLoop_batches
    · exact (Nat.div_mul_cancel whole).symm
    · rw [number]
      exact enough
    · cases needed with
      | inl one => exact .inl (by rw [count, one])
      | inr more => exact .inr more
  · rw [packLoop_length, number]

theorem preparePacket_length (made : pkt.preparePacket = some packets) :
    (64 * packets.length : Nat) ≤ INT_MAX := by
  obtain ⟨length, size, rest⟩ := Option.bind_eq_some_iff.mp made
  have range := bufLen_le size
  split_ifs at rest with negative
  rw [← Option.some.inj rest, packLoop_length, pktLength]
  omega

/-- The packets are as many as it takes, and each counts the blocks of its part of the
    request. -/
structure Batched (pkt : GenericPacket) (packets : List ProtocolLMS64C) : Prop where
  number : packets.length = pkt.count
  sizes : ∀ p ∈ packets, p.bytes.length = pktLength
  payloads : ∃ payloads, List.Forall₂ pkt.Carries packets payloads ∧
    payloads.flatten = pkt.outBuffer

theorem Batches.payloads {source : List UInt8} (batches : pkt.Batches packets source) :
    ∃ payloads, List.Forall₂ pkt.Carries packets payloads ∧ payloads.flatten = source := by
  induction batches with
  | @last p payload carries =>
    exact ⟨[payload], .cons carries .nil, List.append_nil payload⟩
  | @more p payload packets rest carries full batches ih =>
    obtain ⟨payloads, each, whole⟩ := ih
    exact ⟨payload :: payloads, .cons carries each, by rw [List.flatten_cons, whole]⟩

theorem batched_iff (whole : byteBlockRatio pkt.cmd ∣ pkt.outBuffer.length) :
    (∃ packets, pkt.preparePacket = some packets ∧ pkt.Batched packets) ↔
      Fits (blocksPerPacket pkt.cmd) pkt.blocks := by
  constructor
  · intro made
    obtain ⟨packets, made, batched⟩ := made
    have range := preparePacket_length made
    rw [batched.number] at range
    exact range
  · intro fits
    obtain ⟨packets, made, batches, number⟩ := preparePacket_fits whole fits
    exact ⟨packets, made, number, fun p _ => p.bytes_length, batches.payloads⟩

end GenericPacket

namespace LMS64C

theorem ofBytes_toNat (hi lo : UInt8) : (ofBytes hi lo).toNat = hi.toNat * 256 + lo.toNat := by
  have high := hi.toNat_lt
  have low := lo.toNat_lt
  have shifted : (hi.toUInt32 <<< 8).toNat = hi.toNat <<< 8 := by
    rw [UInt32.toNat_shiftLeft]
    simp
    omega
  rw [ofBytes, UInt32.toNat_or, shifted, UInt8.toNat_toUInt32, ← Nat.shiftLeft_add_eq_or_of_lt low,
    Nat.shiftLeft_eq]

theorem high_toNat (w : UInt16) : (w >>> 8).toUInt8.toNat = w.toNat / 256 := by
  have small := w.toNat_lt
  simp [Nat.shiftRight_eq_div_pow]
  omega

theorem low_toNat (w : UInt16) : (w &&& 0xFF).toUInt8.toNat = w.toNat % 256 := by
  have masked : w.toNat &&& 255 = w.toNat % 256 := Nat.and_two_pow_sub_one_eq_mod w.toNat 8
  rw [UInt16.toNat_toUInt8, UInt16.toNat_and]
  change (w.toNat &&& 255) % 256 = _
  omega

theorem ofBytes_wordBytes (w : UInt16) :
    ofBytes (w >>> 8).toUInt8 (w &&& 0xFF).toUInt8 = w.toUInt32 := by
  apply UInt32.toNat_inj.mp
  rw [ofBytes_toNat, high_toNat, low_toNat, UInt16.toNat_toUInt32]
  omega

theorem wideBytes_eq (w : UInt32) : wideBytes w = wordBytes w.toUInt16 := by
  have high : (w >>> 8).toUInt8 = (w.toUInt16 >>> 8).toUInt8 := by
    apply UInt8.toNat_inj.mp
    rw [high_toNat]
    simp [Nat.shiftRight_eq_div_pow]
    omega
  have low : (w &&& 0xFF).toUInt8 = (w.toUInt16 &&& 0xFF).toUInt8 := by
    apply UInt8.toNat_inj.mp
    have masked : w.toNat &&& 255 = w.toNat % 256 := Nat.and_two_pow_sub_one_eq_mod w.toNat 8
    rw [low_toNat, UInt32.toNat_toUInt8, UInt32.toNat_and, UInt32.toNat_toUInt16]
    change (w.toNat &&& 255) % 256 = _
    omega
  rw [wideBytes, wordBytes, high, low]

def record (w : UInt16 × UInt16) : List UInt8 := wordBytes w.1 ++ wordBytes w.2

theorem wordBytes_length (w : UInt16) : (wordBytes w).length = 2 := rfl

theorem record_length (w : UInt16 × UInt16) : (record w).length = 4 := rfl

theorem ofBytes_record (w : UInt16) :
    (ofBytes (w >>> 8).toUInt8 (w &&& 0xFF).toUInt8).toUInt16 = w := by
  rw [ofBytes_wordBytes, UInt16.toUInt16_toUInt32]

end LMS64C

namespace ProtocolLMS64C

theorem addressesIn_flatMap (addresses : List UInt16) (rest : List UInt8) :
    addressesIn addresses.length (addresses.flatMap wordBytes ++ rest) = addresses := by
  induction addresses with
  | nil => rfl
  | cons a tail ih =>
    change (ofBytes (a >>> 8).toUInt8 (a &&& 0xFF).toUInt8).toUInt16 ::
      addressesIn tail.length (tail.flatMap wordBytes ++ rest) = a :: tail
    rw [ofBytes_record, ih]

theorem recordsIn_flatMap (writes : List (UInt16 × UInt16)) (rest : List UInt8) :
    recordsIn writes.length (writes.flatMap record ++ rest) = writes := by
  induction writes with
  | nil => rfl
  | cons w tail ih =>
    change ((ofBytes (w.1 >>> 8).toUInt8 (w.1 &&& 0xFF).toUInt8).toUInt16,
        (ofBytes (w.2 >>> 8).toUInt8 (w.2 &&& 0xFF).toUInt8).toUInt16) ::
      recordsIn tail.length (tail.flatMap record ++ rest) = w :: tail
    rw [ofBytes_record, ofBytes_record, ih]

end ProtocolLMS64C

namespace GenericPacket

variable {σ α : Type} {d : Board σ} {value : σ → UInt16 → UInt16}
  {applied : σ → List (UInt16 × UInt16)} {readCmd writeCmd : UInt8} {pkt : GenericPacket}
  {packets : List ProtocolLMS64C} {p : ProtocolLMS64C} {payload rest : List UInt8}
  {f : α → List UInt8} {m k : Nat} {l : List α}

theorem Carries.records (carries : pkt.Carries p payload) (ratio : byteBlockRatio pkt.cmd = m)
    (positive : 0 < m) (size : ∀ a, (f a).length = m) (here : payload = l.flatMap f) :
    p.blockCount.toNat = l.length ∧ ∃ rest, p.data = l.flatMap f ++ rest := by
  have counted := carries.counted
  have within := carries.within.trans (dataLength_le pkt.cmd)
  have data := carries.data
  rw [padded_eq within, here] at data
  rw [ratio, here, Records.flatMap_length size, Nat.mul_comm] at counted
  exact ⟨Nat.eq_of_mul_eq_mul_left positive counted, _, data⟩

theorem split_records (size : ∀ a, (f a).length = m) (positive : 0 < m)
    (full : payload.length = k * m) (here : payload ++ rest = l.flatMap f) :
    payload = (l.take k).flatMap f ∧ rest = (l.drop k).flatMap f ∧ (l.take k).length = k := by
  have first : payload = (l.take k).flatMap f := by
    rw [← Records.take_flatMap size, ← here, List.take_left' (by rw [full, Nat.mul_comm])]
  have second : rest = (l.drop k).flatMap f := by
    rw [← Records.drop_flatMap size, ← here, List.drop_left' (by rw [full, Nat.mul_comm])]
  refine ⟨first, second, ?_⟩
  rw [first, Records.flatMap_length size, Nat.mul_comm] at full
  exact Nat.eq_of_mul_eq_mul_right positive full

def Does (d : Board σ) (cmd : UInt8) (f : α → List UInt8) (effect : σ → List α → List UInt8 → σ → Prop) :
    Prop :=
  ∀ s p (l : List α) rest, p.cmd = cmd → p.blockCount.toNat = l.length → l.length ≤ 14 →
    p.data = l.flatMap f ++ rest → ∃ reply s', d.answer s p = (some reply, s') ∧
      reply.status = STATUS_COMPLETED_CMD ∧ effect s l reply.data s'

inductive Chain (effect : σ → List α → List UInt8 → σ → Prop) (k : Nat) :
    σ → List α → List UInt8 → σ → Prop
  | last {s l data s'} (few : l.length ≤ k) (here : effect s l data s') : Chain effect k s l data s'
  | more {s l data s' l' data' s''} (full : l.length = k) (here : effect s l data s')
      (sized : data.length = maxDataLength) (later : Chain effect k s' l' data' s'') :
      Chain effect k s (l ++ l') (data ++ data') s''

theorem Batches.exchange {effect : σ → List α → List UInt8 → σ → Prop} {source : List UInt8}
    (batches : pkt.Batches packets source) (does : Does d pkt.cmd f effect)
    (ratio : byteBlockRatio pkt.cmd = m) (positive : 0 < m) (size : ∀ a, (f a).length = m)
    (fourteen : blocksPerPacket pkt.cmd = 14) (here : source = l.flatMap f) (s : σ) :
    ∃ replies s', d.exchange packets s = (true, replies, s') ∧
      (replies.getLast?.map (·.status)) = some STATUS_COMPLETED_CMD ∧
      Chain effect 14 s l (replies.flatMap (·.data)) s' := by
  induction batches generalizing l s with
  | @last p payload carries =>
    obtain ⟨count, rest, data⟩ := carries.records ratio positive size here
    have few : l.length ≤ 14 := by
      have within := Nat.div_le_div_right (c := m) carries.within
      rw [here, Records.flatMap_length size, Nat.mul_div_cancel_left _ positive, ← ratio] at within
      rw [← fourteen]
      exact within
    obtain ⟨reply, s', answer, status, done⟩ := does s p l rest carries.cmd count few data
    refine ⟨[reply], s', ?_, congrArg some status, ?_⟩
    · simp only [Board.exchange, answer]
    · rw [List.flatMap_singleton]
      exact .last few done
  | @more p payload packets rest carries full batches ih =>
    rw [ratio, fourteen] at full
    obtain ⟨first, second, whole⟩ := split_records size positive full here
    obtain ⟨count, rest, data⟩ := carries.records ratio positive size first
    obtain ⟨reply, s', answer, _, done⟩ :=
      does s p (l.take 14) rest carries.cmd count (Nat.le_of_eq whole) data
    obtain ⟨replies, s'', exchanged, status, chain⟩ := ih second s'
    refine ⟨reply :: replies, s'', ?_, ?_, ?_⟩
    · simp only [Board.exchange, answer, exchanged]
    · cases replies with
      | nil => cases status
      | cons head tail => exact status
    · rw [← List.take_append_drop 14 l, List.flatMap_cons]
      exact .more whole done reply.sized chain

/-- The records of the addresses come back, and nothing changes. -/
def Answered (value : σ → UInt16 → UInt16) (s : σ) (l : List UInt16) (data : List UInt8) (s' : σ) :
    Prop :=
  value s' = value s ∧ (l.flatMap fun a => record (a, value s a)) <+: data

theorem answered_of_serves (serves : d.Serves value applied readCmd writeCmd) :
    Does d readCmd wordBytes (Answered value) := by
  intro s p l rest cmd count few data
  have within : p.blockCount ≤ 14 := by
    rw [UInt8.le_iff_toNat_le, count]
    exact few
  obtain ⟨reply, s', answer, status, same, records⟩ := serves.reads s p cmd within
  have addresses : p.addresses = l := by
    rw [ProtocolLMS64C.addresses, count, data]
    exact ProtocolLMS64C.addressesIn_flatMap l rest
  rw [addresses] at records
  exact ⟨reply, s', answer, status, same, records⟩

theorem Chain.answered {s s' : σ} {l : List UInt16} {data : List UInt8}
    (chain : Chain (Answered value) 14 s l data s') : Answered value s l data s' := by
  induction chain with
  | last few here => exact here
  | @more s l data s' l' data' s'' full here sized later ih =>
    obtain ⟨same, first⟩ := here
    obtain ⟨same', second⟩ := ih
    refine ⟨same'.trans same, ?_⟩
    have whole : (l.flatMap fun a => record (a, value s a)) = data := by
      apply first.eq_of_length
      rw [Records.flatMap_length fun a => record_length (a, value s a), full, sized]
      rfl
    rw [List.flatMap_append, whole, List.prefix_append_right_inj]
    simpa only [same] using second

def Applied (applied : σ → List (UInt16 × UInt16)) (s : σ) (l : List (UInt16 × UInt16))
    (_ : List UInt8) (s' : σ) : Prop :=
  applied s' = applied s ++ l

theorem applied_of_serves (serves : d.Serves value applied readCmd writeCmd) :
    Does d writeCmd record (Applied applied) := by
  intro s p l rest cmd count few data
  have within : p.blockCount ≤ 14 := by
    rw [UInt8.le_iff_toNat_le, count]
    exact few
  obtain ⟨reply, s', answer, status, done⟩ := serves.writes s p cmd within
  have records : p.records = l := by
    rw [ProtocolLMS64C.records, count, data]
    exact ProtocolLMS64C.recordsIn_flatMap l rest
  rw [records] at done
  exact ⟨reply, s', answer, status, done⟩

theorem Chain.written {s s' : σ} {l : List (UInt16 × UInt16)} {data : List UInt8}
    (chain : Chain (Applied applied) 14 s l data s') : Applied applied s l data s' := by
  induction chain with
  | last few here => exact here
  | more full here sized later ih => exact ih.trans (by rw [here, List.append_assoc])

end GenericPacket

namespace LMS64C

open GenericPacket

variable {σ α : Type} {d : Board σ} {value : σ → UInt16 → UInt16}
  {applied : σ → List (UInt16 × UInt16)} {readCmd writeCmd : UInt8} {m : Nat} {f : α → List UInt8}

theorem request_blocks {cmd : UInt8} (ratio : byteBlockRatio cmd = m) (positive : 0 < m)
    (size : ∀ a, (f a).length = m) (periphID : UInt32) (l : List α) :
    (request cmd periphID (l.flatMap f)).blocks = l.length := by
  change (l.flatMap f).length / byteBlockRatio cmd = l.length
  rw [ratio, Records.flatMap_length size, Nat.mul_div_cancel_left _ positive]

theorem transferPacket_fits {cmd : UInt8} {effect : σ → List α → List UInt8 → σ → Prop}
    (does : Does d cmd f effect) (ratio : byteBlockRatio cmd = m) (positive : 0 < m)
    (size : ∀ a, (f a).length = m) (fourteen : blocksPerPacket cmd = 14) {l : List α}
    (fits : Fits 14 l.length) (periphID : UInt32) (s : σ) :
    ∃ pkt s', transferPacket d (request cmd periphID (l.flatMap f)) s = some (0, pkt, s') ∧
      pkt.status = STATUS_COMPLETED_CMD ∧ Chain effect 14 s l pkt.inBuffer s' := by
  have blocks := request_blocks ratio positive size periphID l
  have whole : byteBlockRatio cmd ∣ (l.flatMap f).length := by
    rw [ratio, Records.flatMap_length size]
    exact Nat.dvd_mul_right m l.length
  rw [← blocks, ← fourteen] at fits
  obtain ⟨packets, made, batches, _⟩ :=
    @preparePacket_fits (request cmd periphID (l.flatMap f)) whole fits
  obtain ⟨replies, s', exchanged, status, chain⟩ :=
    batches.exchange does ratio positive size fourteen rfl s
  refine ⟨(request cmd periphID (l.flatMap f)).parsePacket replies, s', ?_, ?_, chain⟩
  · rw [transferPacket, made]
    simp only [Option.map_some, exchanged, convertStatus, parsePacket, status]
    rfl
  · simp only [parsePacket, status]
    rfl

theorem readRecords_fits (serves : d.Serves value applied readCmd writeCmd)
    (ratio : byteBlockRatio readCmd = 2) (fourteen : blocksPerPacket readCmd = 14)
    {l : List UInt16} (fits : Fits 14 l.length) (periphID : UInt32) {data : List UInt32}
    (room : data.length = l.length) (s : σ) :
    ∃ s', readRecords d readCmd periphID (l.flatMap wordBytes) l.length data s =
      some (0, l.map fun a => (value s a).toUInt32, s') := by
  obtain ⟨pkt, s', transferred, status, chain⟩ := transferPacket_fits (answered_of_serves serves)
    ratio (by omega) wordBytes_length fourteen fits periphID s
  obtain ⟨rest, records⟩ := chain.answered.2
  have size : ∀ a, (record (a, value s a)).length = 4 := fun _ => rfl
  have read : min (pkt.inBuffer.length / 4) l.length = l.length := by
    rw [← records, List.length_append, Records.flatMap_length size]
    omega
  have values : ((List.range l.length).map fun i =>
      ofBytes (pkt.inBuffer.getD (4 * i + 2) 0) (pkt.inBuffer.getD (4 * i + 3) 0)) =
        l.map fun a => (value s a).toUInt32 := by
    apply List.ext_getElem
    · rw [List.length_map, List.length_map, List.length_range]
    · intro i left right
      have inside : i < l.length := by simpa using right
      have hi := Records.getElem?_flatMap size inside (show 2 < 4 by omega) rest
      have lo := Records.getElem?_flatMap size inside (show 3 < 4 by omega) rest
      rw [records] at hi lo
      simp only [List.getElem_map, List.getElem_range, List.getD_eq_getElem?_getD, hi, lo]
      exact ofBytes_wordBytes (value s l[i])
  have nothing : data.drop l.length = [] := by rw [← room, List.drop_length]
  refine ⟨s', ?_⟩
  rw [readRecords, transferred]
  simp only [Option.map_some, read, values, nothing, List.append_nil, convertStatus, status, if_true,
    ne_eq, not_true, if_false]

theorem writeRecords_fits (serves : d.Serves value applied readCmd writeCmd)
    (ratio : byteBlockRatio writeCmd = 4) (fourteen : blocksPerPacket writeCmd = 14)
    {l : List (UInt16 × UInt16)} (fits : Fits 14 l.length) (periphID : UInt32) (s : σ) :
    ∃ s', writeRecords d writeCmd periphID (l.flatMap record) s = some (0, s') ∧
      applied s' = applied s ++ l := by
  obtain ⟨pkt, s', transferred, status, chain⟩ := transferPacket_fits (applied_of_serves serves)
    ratio (by omega) record_length fourteen fits periphID s
  refine ⟨s', ?_, chain.written⟩
  rw [writeRecords, transferred]
  simp [convertStatus, status]

end LMS64C

end Soapy.Lime
