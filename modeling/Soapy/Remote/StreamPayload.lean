import Soapy.Remote.StreamRecords

/-! # What a stream carries

Sender and receiver compute the layout of a buffer from the same arguments, each
for itself. A record holds the channels up to the last one, which is shortened; the
receiver finds every channel where the sender wrote it, provided that the record
arrives as one. It does not in datagram mode when it takes more than one `send`
call, and its size has to fit the fields and lengths it passes through.
-/

namespace Soapy.Remote

open Lib

namespace EndpointConfig

variable {c : EndpointConfig}

/-- At least one element of every channel fits behind the header. -/
def WellFormed (c : EndpointConfig) : Prop :=
  1 ≤ (c.mtu.toNat - 48 - 24) / c.numChans.toNat / c.elemSize.toNat

def channelBytes (c : EndpointConfig) : Nat := c.buffSize.toNat * c.elemSize.toNat

def elemBytes (c : EndpointConfig) (numElemsOrErr : Int32) : Nat :=
  numElemsOrErr.toInt.toNat * c.elemSize.toNat

/-- The size of a record: the header, all channels but the last one in full, and the
    elements of the last one. A code is sent as a header alone. -/
def recordSize (c : EndpointConfig) (numElemsOrErr : Int32) : Nat :=
  if numElemsOrErr < 0 then 24
  else 24 + (c.numChans.toNat - 1) * c.channelBytes + c.elemBytes numElemsOrErr

theorem channel_le {i : Nat} (channel : i < c.numChans.toNat) :
    i * c.channelBytes + c.channelBytes ≤ c.numChans.toNat * c.channelBytes := by
  rw [← Nat.succ_mul]
  exact Nat.mul_le_mul_right _ channel

theorem elemBytes_none {v : Int32} (none : ¬ 0 < v) : c.elemBytes v = 0 := by
  rw [Int32.lt_iff_toInt_lt] at none
  rw [elemBytes, Int.toNat_of_nonpos (Int.not_lt.mp none), Nat.zero_mul]

theorem elemBytes_le {v : Int32} (few : v.toInt ≤ c.buffSize.toNat) :
    c.elemBytes v ≤ c.channelBytes :=
  Nat.mul_le_mul_right _ (by omega)

theorem channels_fit :
    c.numChans.toNat * c.channelBytes ≤ (c.xferSize - UInt64.ofNat streamHeaderSize).toNat := by
  have inner : c.channelBytes ≤
      (c.xferSize - UInt64.ofNat streamHeaderSize).toNat / c.numChans.toNat := by
    rw [channelBytes, EndpointConfig.buffSize, UInt64.toNat_div, UInt64.toNat_div]
    exact Nat.div_mul_le_self ..
  exact (Nat.mul_le_mul_left _ inner).trans (Nat.mul_div_le ..)

theorem channelOffset_of_lt {i : Nat} (channel : i < c.numChans.toNat)
    (room : 24 + i * c.channelBytes < 2 ^ 64) :
    (c.channelOffset (UInt64.ofNat i)).toNat = 24 + i * c.channelBytes := by
  have chans := c.numChans.toNat_lt
  have index : (UInt64.ofNat i).toNat = i := UInt64.toNat_ofNat_of_lt' (by
    simp only [UInt64.size]
    omega)
  have product : i * c.buffSize.toNat * c.elemSize.toNat = i * c.channelBytes := by
    rw [channelBytes, Nat.mul_assoc]
  have header : (UInt64.ofNat streamHeaderSize).toNat = 24 := rfl
  rw [EndpointConfig.channelOffset, UInt64.toNat_add, UInt64.toNat_mul, UInt64.toNat_mul, index,
    header, Nat.mod_mul_mod, product]
  rw [Nat.mod_eq_of_lt (show i * c.channelBytes < 2 ^ 64 by omega), Nat.mod_eq_of_lt room]

theorem channelOffset_of_few (few : c.numChans.toNat < 2 ^ 32) {i : Nat}
    (channel : i < c.numChans.toNat) :
    (c.channelOffset (UInt64.ofNat i)).toNat = 24 + i * c.channelBytes := by
  apply channelOffset_of_lt channel
  have fit := c.channels_fit
  have here := channel_le channel
  have limit := (c.xferSize - UInt64.ofNat streamHeaderSize).toNat_lt
  by_cases small : c.channelBytes < 24
  · have product : i * c.channelBytes ≤ i * 24 := Nat.mul_le_mul_left _ (Nat.le_of_lt small)
    omega
  · omega

section Large

theorem xferSize_toNat (large : 48 ≤ c.mtu.toNat) : c.xferSize.toNat = c.mtu.toNat - 48 := by
  rw [EndpointConfig.xferSize, UInt64.toNat_sub_of_le]
  · rfl
  · rw [UInt64.le_iff_toNat_le]
    exact large

variable (large : 72 ≤ c.mtu.toNat)

include large

theorem buffSize_toNat :
    c.buffSize.toNat = (c.mtu.toNat - 48 - 24) / c.numChans.toNat / c.elemSize.toNat := by
  have xfer := xferSize_toNat (c := c) (by omega)
  have behind : (c.xferSize - UInt64.ofNat streamHeaderSize).toNat = c.mtu.toNat - 48 - 24 := by
    rw [UInt64.toNat_sub_of_le, xfer]
    · rfl
    · rw [UInt64.le_iff_toNat_le, xfer]
      change 24 ≤ c.mtu.toNat - 48
      omega
  rw [EndpointConfig.buffSize, UInt64.toNat_div, UInt64.toNat_div, behind]

theorem channels_le : 24 + c.numChans.toNat * c.channelBytes ≤ c.xferSize.toNat := by
  have inner : c.buffSize.toNat * c.elemSize.toNat ≤
      (c.mtu.toNat - 48 - 24) / c.numChans.toNat := by
    rw [buffSize_toNat large]
    exact Nat.div_mul_le_self ..
  have outer : c.numChans.toNat * c.channelBytes ≤ c.mtu.toNat - 48 - 24 :=
    le_trans (Nat.mul_le_mul_left _ inner) (Nat.mul_div_le ..)
  rw [xferSize_toNat (by omega)]
  omega

theorem channelOffset_toNat {i : Nat} (channel : i < c.numChans.toNat) :
    (c.channelOffset (UInt64.ofNat i)).toNat = 24 + i * c.channelBytes := by
  have all := channels_le large
  have here := channel_le channel
  have limit := c.xferSize.toNat_lt
  exact channelOffset_of_lt channel (by omega)

end Large

section Layout

variable (wf : c.WellFormed)

include wf

theorem WellFormed.numChans_pos : 0 < c.numChans.toNat := by
  rcases Nat.eq_zero_or_pos c.numChans.toNat with zero | positive
  · rw [WellFormed, zero, Nat.div_zero, Nat.zero_div] at wf
    omega
  · exact positive

theorem WellFormed.elemSize_pos : 0 < c.elemSize.toNat := by
  rcases Nat.eq_zero_or_pos c.elemSize.toNat with zero | positive
  · rw [WellFormed, zero, Nat.div_zero] at wf
    omega
  · exact positive

theorem WellFormed.mtu : 72 < c.mtu.toNat := by
  by_contra small
  have none : c.mtu.toNat - 48 - 24 = 0 := by omega
  rw [WellFormed, none, Nat.zero_div, Nat.zero_div] at wf
  omega

theorem WellFormed.channels_le :
    24 + c.numChans.toNat * c.channelBytes ≤ c.xferSize.toNat :=
  EndpointConfig.channels_le (Nat.le_of_lt wf.mtu)

theorem WellFormed.channelOffset {i : Nat} (channel : i < c.numChans.toNat) :
    (c.channelOffset (UInt64.ofNat i)).toNat = 24 + i * c.channelBytes :=
  channelOffset_toNat (Nat.le_of_lt wf.mtu) channel

variable {v : Int32}

theorem WellFormed.recordSize_le (few : v.toInt ≤ c.buffSize.toNat) :
    24 ≤ c.recordSize v ∧ c.recordSize v ≤ c.xferSize.toNat := by
  have all := wf.channels_le
  have last := channel_le (Nat.sub_lt wf.numChans_pos Nat.one_pos)
  have short := elemBytes_le few
  unfold recordSize
  split <;> omega

theorem WellFormed.sendBytes (few : v.toInt ≤ c.buffSize.toNat) :
    (c.sendBytes v).toNat = c.recordSize v := by
  have bounded := (wf.recordSize_le few).2
  have limit := c.xferSize.toNat_lt
  have header : (UInt64.ofNat streamHeaderSize).toNat = 24 := rfl
  unfold recordSize at bounded ⊢
  by_cases code : v < 0
  · rw [EndpointConfig.sendBytes, if_pos code, if_pos code]
    rfl
  · have nonneg : 0 ≤ v.toInt := by
      rw [Int32.lt_iff_toInt_lt] at code
      exact Int.not_lt.mp code
    have size : (Unpack.toSize v).toNat = v.toInt.toNat := by
      have high := v.toInt_lt
      rw [Unpack.toSize, UInt64.toNat_ofNat_of_lt' (by simp [UInt64.size]; omega)]
      omega
    have chans : (c.numChans - 1).toNat = c.numChans.toNat - 1 := by
      rw [UInt64.toNat_sub_of_le]
      · rfl
      · rw [UInt64.le_iff_toNat_le]
        exact wf.numChans_pos
    have product : ((c.numChans.toNat - 1) * c.buffSize.toNat + v.toInt.toNat) * c.elemSize.toNat =
        (c.numChans.toNat - 1) * c.channelBytes + c.elemBytes v := by
      rw [Nat.add_mul, channelBytes, elemBytes, Nat.mul_assoc]
    rw [if_neg code] at bounded
    rw [EndpointConfig.sendBytes, if_neg code, if_neg code, UInt64.toNat_add, UInt64.toNat_mul,
      UInt64.toNat_add, UInt64.toNat_mul, chans, size, header, Nat.mod_add_mod, Nat.mod_mul_mod,
      product, Nat.add_mod_mod, Nat.mod_eq_of_lt (by omega), Nat.add_assoc]

end Layout

end EndpointConfig

namespace Endpoint

/-- The user writes the elements of the first channels through the pointers given
    by `acquireSend`. -/
def writeChannels (e : Endpoint) (h : BuffHandle) (contents : Nat → Bytes) : Nat → Endpoint
  | 0 => e
  | i + 1 => (e.writeChannels h contents i).store h
      (e.config.channelOffset (UInt64.ofNat i)).toNat (contents i)

variable {e : Endpoint} {h : BuffHandle} {contents : Nat → Bytes}

@[simp] theorem writeChannels_config (n : Nat) :
    (e.writeChannels h contents n).config = e.config := by
  induction n with
  | zero => rfl
  | succ i ih => exact ih

theorem writeChannels_writes (e : Endpoint) (h : BuffHandle) (contents : Nat → Bytes) (n : Nat) :
    ∃ writes, (e.writeChannels h contents n).writes = e.writes ++ writes ∧
      ∀ w ∈ writes, ∃ i < n, w =
        ((e.config.channelOffset (UInt64.ofNat i)).toNat, (contents i).length) := by
  induction n with
  | zero => exact ⟨[], (List.append_nil _).symm, by simp⟩
  | succ n ih =>
    obtain ⟨writes, same, places⟩ := ih
    refine ⟨writes ++ [((e.config.channelOffset (UInt64.ofNat n)).toNat, (contents n).length)], ?_,
      ?_⟩
    · rw [writeChannels, store, same, List.append_assoc]
    · intro w member
      rcases List.mem_append.mp member with old | new
      · obtain ⟨i, small, place⟩ := places w old
        exact ⟨i, Nat.lt_succ_of_lt small, place⟩
      · exact ⟨n, Nat.lt_succ_self n, List.mem_singleton.mp new⟩

theorem writeChannels_load (wf : e.config.WellFormed) {size n i : Nat} (i_lt : i < n)
    (n_le : n ≤ e.config.numChans.toNat) (fits : size ≤ e.config.channelBytes)
    (sizes : ∀ j < n, (contents j).length = size) :
    ((e.writeChannels h contents n).buff h).load (24 + i * e.config.channelBytes) size =
      contents i := by
  induction n with
  | zero => omega
  | succ n ih =>
    have stored : ((e.writeChannels h contents (n + 1)).buff h) =
        ((e.writeChannels h contents n).buff h).store (24 + n * e.config.channelBytes)
          (contents n) := by
      rw [← wf.channelOffset n_le]
      exact Function.update_self ..
    rw [stored]
    by_cases last : i = n
    · have back := Memory.load_store ((e.writeChannels h contents n).buff h)
        (24 + n * e.config.channelBytes) 0 size (contents n)
        (by rw [sizes n (Nat.lt_succ_self n)]; omega)
      rw [last, Nat.add_zero] at *
      rw [back, List.drop_zero, List.take_of_length_le (sizes n (Nat.lt_succ_self n)).le]
    · have before : i < n := by omega
      have apart : i * e.config.channelBytes + e.config.channelBytes ≤
          n * e.config.channelBytes := by
        rw [← Nat.succ_mul]
        exact Nat.mul_le_mul_right _ before
      rw [Memory.load_store_disjoint (Or.inl (by omega))]
      exact ih before (by omega) (fun j small => sizes j (Nat.lt_succ_of_lt small))

end Endpoint

/-- Exactly what was sent reaches the socket: the datagrams in order, or the bytes of
    the stream cut in any way. -/
def Transmits (c : EndpointConfig) (pieces : List Bytes) (arrivals : Arrivals) : Prop :=
  if c.datagramMode then arrivals = pieces.map some else Delivers arrivals pieces.flatten

/-- What `acquireRecv` has to give for a release: the count or code, the flags and the time, and for
    each channel what was written there. A code acquires no handle, and no write of either side
    leaves its buffer. -/
def Carries (c : EndpointConfig) (v : Int32) : Prop :=
  ∀ (sender receiver : Endpoint) (contents : Nat → Bytes) (grants : Grants) (flags : Int32)
    (timeNs : Int64) (arrivals : Arrivals),
  sender.config = c → receiver.config = c → sender.ring.full = false → receiver.ring.full = false →
  (∀ i < c.numChans.toNat, (contents i).length = c.elemBytes v) → (∀ n, (grants n).isSome) →
  let h := sender.ring.nextHandleAcquire
  let written := sender.acquireSend.2.writeChannels h contents c.numChans.toNat
  let out := written.releaseSend grants h v flags timeNs
  Transmits c out.1 arrivals →
  ∃ got receiver' rest g,
    receiver.acquireRecv arrivals = some (got, receiver', rest) ∧
    got.ret = v ∧ got.outputs = some (g, flags, timeNs) ∧
    (∀ i < c.numChans.toNat,
      (receiver'.buff g).load (c.channelOffset (UInt64.ofNat i)).toNat (c.elemBytes v) =
        contents i) ∧
    (receiver'.ring = if 0 ≤ v then receiver.ring.acquire else receiver.ring) ∧
    (∃ writes, out.2.writes = sender.writes ++ writes ∧
      ∀ w ∈ writes, w.1 + w.2 ≤ c.xferSize.toNat) ∧
    (∃ writes, receiver'.writes = receiver.writes ++ writes ∧
      ∀ w ∈ writes, w.1 + w.2 ≤ c.xferSize.toNat)

/-- The record goes out in one datagram that `recv` takes whole, or in stream mode
    its size fits the header's field. Without elements only the header matters. -/
def Fits (c : EndpointConfig) (v : Int32) : Prop :=
  if c.datagramMode then
    c.recordSize v ≤ min socketBuffMax c.recvLength ∨
      (v = 0 ∧ streamHeaderSize ≤ c.recvLength ∧
        c.recordSize v % 2 ^ 32 ≤ min socketBuffMax c.recvLength)
  else c.recordSize v < 2 ^ 32 ∨ v = 0

instance (c : EndpointConfig) (v : Int32) : Decidable (Fits c v) := by
  unfold Fits
  infer_instance

namespace Endpoint

section Record

variable {e : Endpoint} {h : BuffHandle} {contents : Nat → Bytes} {grants : Grants} {v : Int32}
  {flags : Int32} {timeNs : Int64}

theorem record_channel (wf : e.config.WellFormed) (few : v.toInt ≤ e.config.buffSize.toNat)
    (works : ∀ n, (grants n).isSome) (counted : ¬ v < 0)
    (sizes : ∀ i < e.config.numChans.toNat, (contents i).length = e.config.elemBytes v)
    {i : Nat} (channel : i < e.config.numChans.toNat) :
    (((e.writeChannels h contents e.config.numChans.toNat).releaseSend grants h v flags
        timeNs).1.flatten.drop (24 + i * e.config.channelBytes)).take (e.config.elemBytes v) =
      contents i := by
  have short := EndpointConfig.elemBytes_le few
  have before : i * e.config.channelBytes ≤ (e.config.numChans.toNat - 1) * e.config.channelBytes :=
    Nat.mul_le_mul_right _ (by omega)
  have size : e.config.recordSize v =
      24 + (e.config.numChans.toNat - 1) * e.config.channelBytes + e.config.elemBytes v := by
    rw [EndpointConfig.recordSize, if_neg counted]
  rw [releaseSend_flatten works, Memory.load_drop, writeChannels_config, wf.sendBytes few,
    Memory.load_take (by omega), Nat.zero_add, Memory.load_store_disjoint (Or.inr (by
      rw [StreamDatagramHeader.encode_length, streamHeaderSize]
      omega))]
  exact writeChannels_load wf channel (le_refl _) short sizes

theorem filled_channel (wf : e.config.WellFormed) (few : v.toInt ≤ e.config.buffSize.toNat)
    (works : ∀ n, (grants n).isSome) (counted : ¬ v < 0)
    (sizes : ∀ i < e.config.numChans.toNat, (contents i).length = e.config.elemBytes v)
    (receiver : Endpoint) (g : BuffHandle) {writes : List (Nat × Nat)}
    {i : Nat} (channel : i < e.config.numChans.toNat) :
    ((receiver.filled g ((e.writeChannels h contents e.config.numChans.toNat).releaseSend grants h v
        flags timeNs).1.flatten writes).buff g).load (24 + i * e.config.channelBytes)
        (e.config.elemBytes v) = contents i := by
  have sent : (((e.writeChannels h contents e.config.numChans.toNat).releaseSend grants h v flags
      timeNs).1.flatten.drop (24 + i * e.config.channelBytes)).take (e.config.elemBytes v) =
      contents i :=
    record_channel wf few works counted sizes channel
  have placed : i * e.config.channelBytes ≤ (e.config.numChans.toNat - 1) * e.config.channelBytes :=
    Nat.mul_le_mul_right _ (by omega)
  have inside : 24 + i * e.config.channelBytes + e.config.elemBytes v ≤
      ((e.writeChannels h contents e.config.numChans.toNat).releaseSend grants h v flags
        timeNs).1.flatten.length := by
    rw [releaseSend_length works, writeChannels_config, wf.sendBytes few,
      EndpointConfig.recordSize, if_neg counted]
    omega
  have loaded := Memory.load_store (receiver.buff g) 0 (24 + i * e.config.channelBytes)
    (e.config.elemBytes v) _ inside
  rw [Nat.zero_add] at loaded
  rw [filled_buff, loaded]
  exact sent

theorem send_writes (wf : e.config.WellFormed) (few : v.toInt ≤ e.config.buffSize.toNat)
    (sizes : ∀ i < e.config.numChans.toNat, (contents i).length = e.config.elemBytes v) :
    ∃ writes, ((e.writeChannels h contents e.config.numChans.toNat).releaseSend grants h v flags
        timeNs).2.writes = e.writes ++ writes ∧
      ∀ w ∈ writes, w.1 + w.2 ≤ e.config.xferSize.toNat := by
  obtain ⟨writes, same, places⟩ := writeChannels_writes e h contents
    e.config.numChans.toNat
  have all := wf.channels_le
  have short := EndpointConfig.elemBytes_le few
  refine ⟨writes ++ [(0, streamHeaderSize)], ?_, ?_⟩
  · simp only [releaseSend, store, same, StreamDatagramHeader.encode_length, List.append_assoc]
  · intro w member
    rcases List.mem_append.mp member with channels | header
    · obtain ⟨i, channel, rfl⟩ := places w channels
      have here := EndpointConfig.channel_le channel
      rw [wf.channelOffset channel, sizes i channel]
      omega
    · rw [List.mem_singleton.mp header, streamHeaderSize]
      omega

end Record

end Endpoint

section Carries

variable {c : EndpointConfig} {v : Int32}

section Record

variable {e : Endpoint} {h : BuffHandle} {grants : Grants} {flags : Int32} {timeNs : Int64}

theorem record_length (wf : c.WellFormed) (few : v.toInt ≤ c.buffSize.toNat) (config : e.config = c)
    (works : ∀ n, (grants n).isSome) :
    (e.releaseSend grants h v flags timeNs).1.flatten.length = c.recordSize v := by
  rw [Endpoint.releaseSend_length works, config, wf.sendBytes few]

theorem record_header (wf : c.WellFormed) (few : v.toInt ≤ c.buffSize.toNat) (config : e.config = c)
    (works : ∀ n, (grants n).isSome) :
    StreamDatagramHeader.decode (e.releaseSend grants h v flags timeNs).1.flatten =
      e.sendHeader v flags timeNs :=
  Endpoint.releaseSend_header works _ _ _ (by
    rw [config, wf.sendBytes few]
    exact (wf.recordSize_le few).1)

theorem record_bytes (wf : c.WellFormed) (few : v.toInt ≤ c.buffSize.toNat) (config : e.config = c)
    (works : ∀ n, (grants n).isSome) :
    (StreamDatagramHeader.decode
      (e.releaseSend grants h v flags timeNs).1.flatten).bytes.toNat = c.recordSize v % 2 ^ 32 := by
  rw [record_header wf few config works, Endpoint.sendHeader, UInt64.toNat_toUInt32, config,
    wf.sendBytes few]

theorem receive_firstDatagram (wf : c.WellFormed) (few : v.toInt ≤ c.buffSize.toNat)
    (config : e.config = c) (works : ∀ n, (grants n).isSome) (mode : c.datagramMode = true)
    (receiver : Endpoint) (g : BuffHandle) {arrivals : Arrivals} (receives : receiver.config = c)
    (transmits : Transmits c (e.releaseSend grants h v flags timeNs).1 arrivals)
    {found : Bytes} (same : (e.releaseSend grants h v flags timeNs).1.flatten.take
      (min c.recvLength socketBuffMax) = found) :
    ∃ rest, receiver.receive g arrivals =
      some (decide (((receiver.filled g found [(0, found.length)]).header g).bytes.toNat ≤
        found.length), receiver.filled g found [(0, found.length)], rest) := by
  have whole := (wf.recordSize_le few).1
  obtain ⟨later, first⟩ := Endpoint.releaseSend_datagram (e := e) (h := h) works (config ▸ mode) v
    flags timeNs (by rw [config, wf.sendBytes few]; omega)
  rw [Transmits, if_pos mode, first, List.map_cons] at transmits
  refine ⟨later.map some, ?_⟩
  rw [transmits]
  exact Endpoint.receive_datagram (receives ▸ mode) _ (by rw [receives, List.take_take, same])

end Record

open Endpoint in
theorem carries_of_received (wf : c.WellFormed) (few : v.toInt ≤ c.buffSize.toNat)
    (received : ∀ (e receiver : Endpoint) (h g : BuffHandle) (grants : Grants) (flags : Int32)
      (timeNs : Int64) (arrivals : Arrivals), e.config = c → receiver.config = c →
      (∀ n, (grants n).isSome) → Transmits c (e.releaseSend grants h v flags timeNs).1 arrivals →
      ∃ size writes rest, streamHeaderSize ≤ size ∧ size ≤ c.recordSize v ∧
        (0 < v → c.recordSize v ≤ size) ∧ (∀ w ∈ writes, w.1 + w.2 ≤ size) ∧
        receiver.receive g arrivals = some (true, receiver.filled g
          ((e.releaseSend grants h v flags timeNs).1.flatten.take size) writes, rest)) :
    Carries c v := by
  intro sender receiver contents grants flags timeNs arrivals sends receives sendRoom recvRoom sizes
    works h written out transmits
  have config : sender.acquireSend.2.config = c := by
    rw [acquireSend, if_neg (by simp [sendRoom])]
    exact sends
  have writesBefore : sender.acquireSend.2.writes = sender.writes := by
    rw [acquireSend, if_neg (by simp [sendRoom])]
  have writtenConfig : written.config = c := (writeChannels_config _).trans config
  obtain ⟨size, writes, rest, header, inside, whole, within, gets⟩ :=
    received written receiver h receiver.ring.nextHandleAcquire grants flags timeNs arrivals
      writtenConfig receives works transmits
  have length : out.1.flatten.length = c.recordSize v := record_length wf few writtenConfig works
  have headerSent : StreamDatagramHeader.decode out.1.flatten = written.sendHeader v flags timeNs :=
    record_header wf few writtenConfig works
  have read : (receiver.filled receiver.ring.nextHandleAcquire (out.1.flatten.take size)
      writes).header receiver.ring.nextHandleAcquire = written.sendHeader v flags timeNs := by
    rw [filled_take_header header (by rw [length]; omega), headerSent]
  have ret : (written.sendHeader v flags timeNs).elems.toInt32 = v := Int32.toInt32_toUInt32 v
  have returned : ((receiver.filled receiver.ring.nextHandleAcquire (out.1.flatten.take size)
      writes).accept receiver.ring.nextHandleAcquire).1.ret = v := by
    rw [accept, read]
    exact ret
  refine ⟨_, _, rest, receiver.ring.nextHandleAcquire, acquireRecv_received recvRoom gets, returned,
    ?_, fun i channel => ?_, ?_, ?_, writes, ?_, fun w member => ?_⟩
  · rw [accept, read]
    rfl
  · rw [accept_buff, wf.channelOffset channel]
    by_cases counted : 0 < v
    · rw [List.take_of_length_le (by rw [length]; exact whole counted)]
      subst config
      exact filled_channel wf few works (Int32.lt_asymm counted) sizes _ _ channel
    · have nothing := sizes i channel
      rw [EndpointConfig.elemBytes_none counted] at nothing ⊢
      exact (List.length_eq_zero_iff.mp nothing).symm
  · rw [accept_ring, returned]
    rfl
  · subst config
    rw [← writesBefore]
    exact send_writes wf few sizes
  · rw [accept_writes]
    rfl
  · have bound := (wf.recordSize_le few).2
    have := within w member
    omega

theorem carries_of_fits (wf : c.WellFormed) (few : v.toInt ≤ c.buffSize.toNat) (fits : Fits c v) :
    Carries c v := by
  apply carries_of_received wf few
  intro e receiver h g grants flags timeNs arrivals config receives works transmits
  have length : (e.releaseSend grants h v flags timeNs).1.flatten.length = c.recordSize v :=
    record_length wf few config works
  have bytes : (StreamDatagramHeader.decode
      (e.releaseSend grants h v flags timeNs).1.flatten).bytes.toNat = c.recordSize v % 2 ^ 32 :=
    record_bytes wf few config works
  have whole := (wf.recordSize_le few).1
  unfold Fits at fits
  cases mode : c.datagramMode with
  | false =>
    rw [mode, if_neg Bool.false_ne_true] at fits
    rw [Transmits, mode, if_neg Bool.false_ne_true] at transmits
    obtain ⟨writes, rest, gets, within⟩ := Endpoint.receive_delivers (h := g) (receives ▸ mode)
      transmits (by rw [length]; exact whole) (by rw [bytes, length]; exact Nat.mod_le ..)
    rw [bytes] at gets within
    refine ⟨_, writes, rest, le_max_left .., max_le whole (Nat.mod_le ..), ?_, within, gets⟩
    intro counted
    rcases fits with small | none
    · rw [Nat.mod_eq_of_lt small]
      exact le_max_right ..
    · rw [none] at counted
      exact absurd counted (by decide)
  | true =>
    rw [mode, if_pos rfl] at fits
    have size : ((e.releaseSend grants h v flags timeNs).1.flatten.take
        (min c.recvLength socketBuffMax)).length =
        min (min c.recvLength socketBuffMax) (c.recordSize v) := by
      rw [List.length_take, length]
    have long : streamHeaderSize ≤ min (min c.recvLength socketBuffMax) (c.recordSize v) := by
      unfold streamHeaderSize socketBuffMax at *
      omega
    obtain ⟨rest, gets⟩ := receive_firstDatagram wf few config works mode receiver g receives
      transmits rfl
    have complete : c.recordSize v % 2 ^ 32 ≤
        min (min c.recvLength socketBuffMax) (c.recordSize v) := by
      have cut := Nat.mod_le (c.recordSize v) (2 ^ 32)
      omega
    rw [Endpoint.filled_take_header (le_trans long (min_le_left ..)) (by rw [length]; omega),
      bytes, size, decide_eq_true complete] at gets
    refine ⟨min c.recvLength socketBuffMax ⊓ c.recordSize v,
      [(0, min (min c.recvLength socketBuffMax) (c.recordSize v))], rest, long, min_le_right ..,
      ?_, ?_, ?_⟩
    · intro counted
      rcases fits with small | ⟨none, _⟩
      · omega
      · rw [none] at counted
        exact absurd counted (by decide)
    · intro w only
      rw [List.mem_singleton.mp only]
      omega
    · rw [gets, ← length, ← List.take_eq_take_min]

theorem time_lost {m : Memory} (lost : m 23 = 0) :
    (StreamDatagramHeader.decode (m.load 0 streamHeaderSize)).time ≠ -1 := by
  intro same
  have tail : ((m.load 0 streamHeaderSize).drop 16).take 8 = m.load 16 7 ++ [0] := by
    rw [Memory.load_drop, Memory.load_take (by decide), ← lost]
    simp only [Memory.load, List.range_succ, List.map_append, List.map_cons, List.map_nil]
  have bits := congrArg (fun t => t.toBitVec.toNat % 256) same
  have shown : ((-1 : Int64).toBitVec.toNat) % 256 = 255 := by decide
  simp only [StreamDatagramHeader.decode, tail, ofBE_append_singleton, Int64.toBitVec_ofBitVec,
    BitVec.toNat_ofNat, shown, UInt8.toNat_zero] at bits
  omega

def probe (c : EndpointConfig) (v : Int32) : Endpoint :=
  (Endpoint.makeSend c).acquireSend.2.writeChannels 0 (fun _ => List.replicate (c.elemBytes v) 1)
    c.numChans.toNat

/-- The release that shows what gets lost in a buffer of zeros: ones in every
    channel, and all bits of the time set. -/
def probeSent (c : EndpointConfig) (v : Int32) : List Bytes :=
  ((probe c v).releaseSend some 0 v 0 (-1)).1

theorem received_of_carries (wf : c.WellFormed) (carries : Carries c v)
    {arrivals rest : Arrivals} {ok : Bool} {found : Bytes} {writes : List (Nat × Nat)}
    (transmits : Transmits c (probeSent c v) arrivals)
    (gets : (Endpoint.fresh c).receive 0 arrivals =
      some (ok, (Endpoint.fresh c).filled 0 found writes, rest)) :
    ok = true ∧ streamHeaderSize ≤ found.length ∧ (0 < v → c.recordSize v ≤ found.length) := by
  obtain ⟨got, receiver', later, g, returns, _, outputs, channels, _⟩ :=
    carries (Endpoint.makeSend c) (Endpoint.fresh c) (fun _ => List.replicate (c.elemBytes v) 1) some
      0 (-1) arrivals rfl rfl rfl rfl (fun _ _ => List.length_replicate) (fun _ => rfl) transmits
  have zeros {i : Nat} (outside : found.length ≤ i) :
      ((Endpoint.fresh c).filled 0 found writes).buff 0 i = 0 := by
    rw [Endpoint.filled_buff, Memory.store_outside (Or.inr (by omega))]
    rfl
  cases ok with
  | false =>
    rw [Endpoint.acquireRecv_failed rfl gets] at returns
    cases returns
    cases outputs
  | true =>
    rw [Endpoint.acquireRecv_received rfl gets] at returns
    cases returns
    have output := Option.some.inj outputs
    have handle : g = 0 := (congrArg Prod.fst output).symm
    have time : (((Endpoint.fresh c).filled 0 found writes).header 0).time = -1 :=
      congrArg (fun out => out.2.2) output
    refine ⟨rfl, ?_, fun counted => ?_⟩
    · by_contra short
      exact time_lost (zeros (by unfold streamHeaderSize at short; omega)) time
    · by_contra short
      have last : c.numChans.toNat - 1 < c.numChans.toNat := Nat.sub_lt wf.numChans_pos Nat.one_pos
      have positive : 0 < c.elemBytes v := by
        rw [Int32.lt_iff_toInt_lt] at counted
        refine Nat.mul_pos ?_ wf.elemSize_pos
        change (0 : Int) < v.toInt at counted
        omega
      have content := channels _ last
      rw [Endpoint.accept_buff, handle, wf.channelOffset last] at content
      have byte := congrArg (fun bs => bs[c.elemBytes v - 1]?) content
      rw [List.getElem?_eq_getElem (by rw [Memory.load_length]; omega), Memory.load_getElem,
        List.getElem?_replicate, if_pos (by omega), zeros (by
          rw [EndpointConfig.recordSize, if_neg (Int32.lt_asymm counted)] at short
          omega)] at byte
      exact absurd (Option.some.inj byte) (by decide)

section Probe

variable (wf : c.WellFormed) (few : v.toInt ≤ c.buffSize.toNat)

include wf few

theorem probeSent_length : (probeSent c v).flatten.length = c.recordSize v :=
  record_length wf few (Endpoint.writeChannels_config _) (fun _ => rfl)

theorem probeSent_bytes :
    (StreamDatagramHeader.decode (probeSent c v).flatten).bytes.toNat = c.recordSize v % 2 ^ 32 :=
  record_bytes wf few (Endpoint.writeChannels_config _) (fun _ => rfl)

theorem streamFits_of_carries (mode : c.datagramMode = false) (carries : Carries c v) :
    0 < v → c.recordSize v < 2 ^ 32 := by
  have length := probeSent_length wf few
  have bytes := probeSent_bytes wf few
  have whole := (wf.recordSize_le few).1
  have delivers : Delivers [some (probeSent c v).flatten] (probeSent c v).flatten := by
    refine ⟨[(probeSent c v).flatten], rfl, ?_, List.flatten_singleton⟩
    intro empty
    rw [← List.mem_singleton.mp empty, List.length_nil] at length
    omega
  have transmits : Transmits c (probeSent c v) [some (probeSent c v).flatten] := by
    rwa [Transmits, mode, if_neg Bool.false_ne_true]
  obtain ⟨writes, rest, gets, _⟩ := Endpoint.receive_delivers (e := Endpoint.fresh c) (h := 0)
    mode delivers (by rw [length]; exact whole) (by rw [bytes, length]; exact Nat.mod_le ..)
  obtain ⟨_, _, elements⟩ := received_of_carries wf carries transmits gets
  rw [bytes, List.length_take, length] at elements
  intro counted
  have all := elements counted
  unfold streamHeaderSize at all
  omega

theorem datagramFits_of_carries (mode : c.datagramMode = true) (carries : Carries c v) :
    streamHeaderSize ≤ c.recvLength ∧
      c.recordSize v % 2 ^ 32 ≤ min socketBuffMax c.recvLength ∧
      (0 < v → c.recordSize v ≤ min socketBuffMax c.recvLength) := by
  have transmits : Transmits c (probeSent c v) ((probeSent c v).map some) := by
    rw [Transmits, mode, if_pos rfl]
  obtain ⟨rest, gets⟩ := receive_firstDatagram wf few (Endpoint.writeChannels_config _)
    (fun _ => rfl) mode (Endpoint.fresh c) 0 rfl transmits
    (show (probeSent c v).flatten.take (min c.recvLength socketBuffMax) = _ from rfl)
  obtain ⟨complete, long, elements⟩ := received_of_carries wf carries transmits gets
  rw [Endpoint.filled_header long] at complete
  rw [List.length_take, probeSent_length wf few] at long elements
  rw [StreamDatagramHeader.decode_take _ (le_trans long (min_le_left ..)),
    probeSent_bytes wf few, decide_eq_true_eq, List.length_take,
    probeSent_length wf few] at complete
  refine ⟨?_, ?_, fun counted => ?_⟩
  · omega
  · omega
  · have all := elements counted
    omega

end Probe

theorem fits_of_carries (wf : c.WellFormed) (few : v.toInt ≤ c.buffSize.toNat)
    (carries : Carries c v) : Fits c v := by
  have code (below : v < 0) : c.recordSize v = 24 := by rw [EndpointConfig.recordSize, if_pos below]
  have sign : 0 < v ∨ v = 0 ∨ v < 0 := by
    simp only [Int32.lt_iff_toInt_lt, ← Int32.toInt_inj]
    omega
  unfold Fits
  cases mode : c.datagramMode with
  | false =>
    rw [if_neg Bool.false_ne_true]
    rcases sign with counted | none | below
    · exact .inl (streamFits_of_carries wf few mode carries counted)
    · exact .inr none
    · left
      rw [code below]
      decide
  | true =>
    rw [if_pos rfl]
    obtain ⟨header, bytes, elements⟩ := datagramFits_of_carries wf few mode carries
    rcases sign with counted | none | below
    · exact .inl (elements counted)
    · exact .inr ⟨none, header, bytes⟩
    · left
      rw [code below] at bytes ⊢
      exact bytes

end Carries

instance (c : EndpointConfig) : Decidable c.WellFormed := inferInstanceAs (Decidable (_ ≤ _))

/-- A release is carried exactly when its record fits. -/
theorem payload_carried_iff (c : EndpointConfig) (wf : c.WellFormed) (v : Int32)
    (few : v.toInt ≤ c.buffSize.toNat) : Carries c v ↔ Fits c v :=
  ⟨fits_of_carries wf few, carries_of_fits wf few⟩

theorem mtu1500_carries_full : Carries ⟨true, 1, 4, 1500⟩ 357 :=
  (payload_carried_iff ⟨true, 1, 4, 1500⟩ (by decide) 357 (by decide)).mpr (by decide)

/-- With jumbo frames a full buffer is sent as three datagrams, and the first one is
    refused. -/
theorem mtu9000_loses_full : ¬ Carries ⟨true, 1, 4, 9000⟩ 2232 := fun carries =>
  absurd (fits_of_carries (c := ⟨true, 1, 4, 9000⟩) (by decide) (by decide) carries) (by decide)

end Soapy.Remote
