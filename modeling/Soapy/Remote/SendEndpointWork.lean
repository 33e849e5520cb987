import Soapy.Remote.StreamPayload

/-! # Forwarding what a device receives

The server reads from the device into a send buffer, first with a timeout, then without one to fill
the buffer, and releases the buffer with what it has. It can be told to stop whenever it looks.
-/

namespace Soapy.Remote

open Lib

/-- `SOAPY_SDR_END_BURST`, `SOAPY_SDR_ONE_PACKET` and `SOAPY_SDR_END_ABRUPT`. -/
def trailingFlags : Int32 := 2 ||| 16 ||| 8

/-- What `readStream` of the device returns, and what it writes through the pointer of each
    channel. -/
structure DeviceRead where
  ret : Int32
  flags : Int32
  timeNs : Int64
  contents : Nat → Bytes

namespace DeviceRead

def numElems (r : DeviceRead) : Nat := r.ret.toInt.toNat

def elems (elemSize : Nat) (r : DeviceRead) (channel : Nat) : Bytes :=
  (r.contents channel).take (r.numElems * elemSize)

structure Serves (c : EndpointConfig) (asked : Nat) (r : DeviceRead) : Prop where
  count : r.ret = streamTimeout ∨ 0 ≤ r.ret
  few : r.numElems ≤ asked
  written : ∀ i < c.numChans.toNat, r.numElems * c.elemSize.toNat ≤ (r.contents i).length ∧
    (r.contents i).length ≤ asked * c.elemSize.toNat

end DeviceRead

/-- A buffer that is passed to `releaseSend`, with the elements of each channel that are in it and
    the reads they come from. -/
structure Sent where
  acquired : Nat
  numElemsOrErr : Int32
  flags : Int32
  timeNs : Int64
  channels : List Bytes
  reads : List DeviceRead
  pieces : List Bytes

/-- The locals of `sendEndpointWork`. The reads are noted, those into the buffer and all so far.
    `done` is seen, or the worker quits. -/
structure SendWork where
  endpoint : Endpoint
  ret : Int32
  handle : BuffHandle
  flags : Int32
  timeNs : Int64
  buffs : List BuffPointer
  elemsLeft : Nat
  elemsRead : Nat
  reads : List DeviceRead
  returned : List (Nat × DeviceRead)
  done : Bool

/-- A turn of the outer loop: what `waitSend` receives, the results of the first loop until `done`
    is set, the result of the second read, and what the `send` calls take. -/
structure SendTurn where
  batches : List (List StreamDatagramHeader)
  firstReads : List DeviceRead
  secondRead : DeviceRead
  grants : Grants

def incrementBuffs (buffs : List BuffPointer) (numElems elemSize : Nat) : List BuffPointer :=
  buffs.map fun p => (p.1, p.2 + numElems * elemSize)

def Endpoint.writeBuffs (e : Endpoint) (buffs : List BuffPointer) (contents : Nat → Bytes) :
    Endpoint :=
  buffs.zipIdx.foldl (fun e p => e.store p.1.1 p.1.2 (contents p.2)) e

namespace SendWork

def start (config : EndpointConfig) : SendWork where
  endpoint := .makeSend config
  ret := 0
  handle := 0
  flags := 0
  timeNs := 0
  buffs := List.replicate config.numChans.toNat (0, 0)
  elemsLeft := 0
  elemsRead := 0
  reads := []
  returned := []
  done := false

def readStream (w : SendWork) (numElems : Nat) (r : DeviceRead) : SendWork :=
  { w with
    endpoint := w.endpoint.writeBuffs w.buffs r.contents
    ret := r.ret
    reads := w.reads ++ [r]
    returned := w.returned ++ [(numElems, r)] }

def count (w : SendWork) (r : DeviceRead) : SendWork :=
  { w with
    elemsLeft := w.elemsLeft - r.numElems
    elemsRead := w.elemsRead + r.numElems }

def firstRead (mtuElems : Nat) (w : SendWork) : List DeviceRead → SendWork
  | [] => { w with done := true }
  | r :: rest =>
    let numElems := min mtuElems w.elemsLeft
    let w := { w.readStream numElems r with flags := r.flags, timeNs := r.timeNs }
    if r.ret = streamTimeout then w.firstRead mtuElems rest
    else if r.ret < 0 then w
    else
      let elemSize := w.endpoint.config.elemSize.toNat
      { w.count r with buffs := incrementBuffs w.buffs r.numElems elemSize }

/-- Fill the remaining buffer with no timeout. -/
def secondRead (w : SendWork) (r : DeviceRead) : SendWork :=
  if w.elemsRead ≠ 0 ∧ w.elemsLeft ≠ 0 ∧ w.flags &&& trailingFlags = 0 then
    let w := w.readStream w.elemsLeft r
    let w := if r.ret = streamTimeout then { w with ret := 0 } else w
    let w := if 0 < w.ret then w.count r else w
    { w with flags := w.flags ||| (r.flags &&& trailingFlags) }
  else w

def release (w : SendWork) (grants : Grants) (acquired : Nat) : Sent × SendWork :=
  let numElemsOrErr := if w.ret < 0 then w.ret else Int32.ofNat w.elemsRead
  let size := numElemsOrErr.toInt.toNat * w.endpoint.config.elemSize.toNat
  let channels := (w.endpoint.getAddrs w.handle).map fun p => (w.endpoint.buff p.1).load p.2 size
  let out := w.endpoint.releaseSend grants w.handle numElemsOrErr w.flags w.timeNs
  (⟨acquired, numElemsOrErr, w.flags, w.timeNs, channels, w.reads, out.1⟩,
    { w with endpoint := out.2 })

def forward (mtuElems : Nat) (w : SendWork) (turn : SendTurn) : Sent × SendWork :=
  let done := (w.firstRead mtuElems turn.firstReads).secondRead turn.secondRead
  done.release turn.grants w.elemsLeft

def sendTurn (mtuElems : Nat) (w : SendWork) (turn : SendTurn) : Option Sent × SendWork :=
  let (ready, e) := w.endpoint.waitSend turn.batches
  if !ready then (none, { w with endpoint := e })
  else
    match e.acquireSend with
    | ((ret, none), e) => (none, { w with endpoint := e, ret := ret, done := true })
    | ((ret, some handle), e) =>
      let w := { w with
        endpoint := e, ret := ret, handle := handle, buffs := e.getAddrs handle
        elemsLeft := ret.toInt.toNat, elemsRead := 0, reads := [] }
      if ret < 0 then (none, { w with done := true })
      else
        let (sent, w) := w.forward mtuElems turn
        (some sent, w)

def sendEndpointWork (mtuElems : Nat) (w : SendWork) : List SendTurn → List Sent × SendWork
  | [] => ([], w)
  | turn :: turns =>
    if w.done then ([], w)
    else
      let first := w.sendTurn mtuElems turn
      let later := first.2.sendEndpointWork mtuElems turns
      (first.1.toList ++ later.1, later.2)

end SendWork

namespace Endpoint

variable {e : Endpoint} {contents : Nat → Bytes}

@[simp] theorem writeBuffs_config (e : Endpoint) (buffs : List BuffPointer)
    (contents : Nat → Bytes) : (e.writeBuffs buffs contents).config = e.config := by
  unfold writeBuffs
  induction buffs.zipIdx generalizing e with
  | nil => rfl
  | cons p rest ih => exact ih _

theorem writeBuffs_buff {h : BuffHandle} (place : Nat → Nat) (n : Nat) :
    (e.writeBuffs ((List.range n).map fun i => (h, place i)) contents).buff h =
      (e.buff h).storeEach place contents n := by
  induction n with
  | zero => rfl
  | succ n ih =>
    unfold writeBuffs at ih ⊢
    rw [List.range_succ, List.map_append, List.zipIdx_append, List.foldl_append]
    simp only [List.map_cons, List.map_nil, List.length_map, List.length_range, Nat.zero_add,
      List.zipIdx_cons, List.zipIdx_nil, List.foldl_cons, List.foldl_nil]
    rw [Memory.storeEach, ← ih]
    exact Function.update_self ..

end Endpoint

namespace DeviceRead

/-- Elements may follow in the same buffer. -/
def Open (r : DeviceRead) : Prop := r.ret = streamTimeout ∨ r.flags &&& trailingFlags = 0

theorem timeout_numElems {r : DeviceRead} (timeout : r.ret = streamTimeout) : r.numElems = 0 := by
  rw [numElems, timeout]
  rfl

end DeviceRead

/-- What a released buffer is to hold. -/
structure Sent.Conserves (c : EndpointConfig) (d : Sent) : Prop where
  channels : ∀ i < c.numChans.toNat,
    d.channels.getD i [] = d.reads.flatMap fun r => r.elems c.elemSize.toNat i
  few : d.numElemsOrErr.toInt ≤ d.acquired
  before : ∀ r ∈ d.reads.dropLast, r.Open

namespace SendWork

variable {c : EndpointConfig} {acquired mtuElems : Nat} {w : SendWork} {r : DeviceRead}

structure Filled (c : EndpointConfig) (acquired : Nat) (w : SendWork) : Prop where
  config : w.endpoint.config = c
  counts : w.elemsRead + w.elemsLeft = acquired
  stored : ∀ i < c.numChans.toNat,
    (w.endpoint.buff w.handle).load (24 + i * c.channelBytes) (w.elemsRead * c.elemSize.toNat) =
      w.reads.flatMap fun r => r.elems c.elemSize.toNat i

def Behind (c : EndpointConfig) (w : SendWork) : Prop :=
  w.buffs = (List.range c.numChans.toNat).map fun i =>
    (w.handle, 24 + i * c.channelBytes + w.elemsRead * c.elemSize.toNat)

theorem Filled.readStream (filled : Filled c acquired w) (behind : w.Behind c)
    (room : acquired ≤ c.buffSize.toNat) {asked : Nat} (few : asked ≤ w.elemsLeft)
    (serves : r.Serves c asked) : Filled c acquired ((w.readStream asked r).count r) where
  config := (Endpoint.writeBuffs_config ..).trans filled.config
  counts := by
    have counts := filled.counts
    have some_ := serves.few
    change w.elemsRead + r.numElems + (w.elemsLeft - r.numElems) = acquired
    omega
  stored i channel := by
    have counts := filled.counts
    have inside : (w.elemsRead + asked) * c.elemSize.toNat ≤ c.channelBytes :=
      Nat.mul_le_mul_right _ (by omega)
    rw [Nat.add_mul] at inside
    -- The strings of two channels are in different channels.
    have apart (j : Nat) (other : j < c.numChans.toNat) (differs : j ≠ i) {skip length : Nat}
        (fits : skip + length ≤ c.channelBytes) :
        24 + i * c.channelBytes + skip + length ≤
            24 + j * c.channelBytes + w.elemsRead * c.elemSize.toNat ∨
          24 + j * c.channelBytes + w.elemsRead * c.elemSize.toNat + (r.contents j).length ≤
            24 + i * c.channelBytes + skip := by
      have short := (serves.written j other).2
      rcases Nat.lt_or_gt_of_ne differs with before | after
      · have next : j * c.channelBytes + c.channelBytes ≤ i * c.channelBytes := by
          rw [← Nat.succ_mul]
          exact Nat.mul_le_mul_right _ before
        omega
      · have next : i * c.channelBytes + c.channelBytes ≤ j * c.channelBytes := by
          rw [← Nat.succ_mul]
          exact Nat.mul_le_mul_right _ after
        omega
    change ((w.endpoint.writeBuffs w.buffs r.contents).buff w.handle).load _
      ((w.elemsRead + r.numElems) * c.elemSize.toNat) =
        (w.reads ++ [r]).flatMap fun r => r.elems c.elemSize.toNat i
    rw [behind, Endpoint.writeBuffs_buff, Nat.add_mul, Memory.load_add, List.flatMap_append,
      List.flatMap_singleton, ← filled.stored i channel]
    congr 1
    · apply Memory.load_storeEach_apart
      intro j other
      by_cases same : j = i
      · rw [same]
        exact .inl (le_refl _)
      · exact @apart j other same 0 _ (by omega)
    · exact Memory.load_storeEach channel (serves.written i channel).1 fun j other differs => by
        have fits := (serves.written i channel).1
        have short := (serves.written i channel).2
        exact apart j other differs (by omega)

theorem count_none (none : r.numElems = 0) : w.count r = w := by
  rw [count, none]
  rfl

/-- A buffer after the first loop, and what of it lets the second read happen. -/
structure FirstDone (c : EndpointConfig) (acquired : Nat) (w : SendWork) : Prop where
  filled : Filled c acquired w
  behind : w.Behind c
  error : w.ret < 0 → w.elemsRead = 0
  before : ∀ r ∈ w.reads.dropLast, r.Open
  last : w.elemsRead ≠ 0 → w.flags &&& trailingFlags = 0 → ∀ r ∈ w.reads, r.Open

def Notes (w w' : SendWork) : Prop :=
  ∃ more, w'.returned = w.returned ++ more ∧ w'.reads = w.reads ++ more.map Prod.snd

theorem Notes.refl (w : SendWork) : w.Notes w :=
  ⟨[], (List.append_nil _).symm, (List.append_nil _).symm⟩

theorem Notes.trans {w₁ w₂ w₃ : SendWork} (first : w₁.Notes w₂) (next : w₂.Notes w₃) :
    w₁.Notes w₃ := by
  obtain ⟨more, returned, reads⟩ := first
  obtain ⟨more', returned', reads'⟩ := next
  refine ⟨more ++ more', ?_, ?_⟩
  · rw [returned', returned, List.append_assoc]
  · rw [reads', reads, List.map_append, List.append_assoc]

theorem firstRead_notes (reads : List DeviceRead) : w.Notes (w.firstRead mtuElems reads) := by
  induction reads generalizing w with
  | nil => exact ⟨[], (List.append_nil _).symm, (List.append_nil _).symm⟩
  | cons r rest ih =>
    rw [firstRead]
    split
    · exact Notes.trans ⟨_, rfl, rfl⟩ ih
    · split
      · exact ⟨_, rfl, rfl⟩
      · exact ⟨_, rfl, rfl⟩

theorem firstRead_first (r : DeviceRead) (rest : List DeviceRead) :
    (min mtuElems w.elemsLeft, r) ∈ (w.firstRead mtuElems (r :: rest)).returned := by
  have here : (min mtuElems w.elemsLeft, r) ∈ w.returned ++ [(min mtuElems w.elemsLeft, r)] :=
    List.mem_append_right _ (List.mem_singleton_self _)
  rw [firstRead]
  split
  · obtain ⟨more, same, -⟩ := @firstRead_notes mtuElems
      { w.readStream (min mtuElems w.elemsLeft) r with flags := r.flags, timeNs := r.timeNs } rest
    rw [same]
    exact List.mem_append_left _ here
  · split
    · exact here
    · exact here

theorem Filled.incremented (filled : Filled c acquired w) (behind : w.Behind c) (asked : Nat) :
    Behind c { (w.readStream asked r).count r with
      buffs := incrementBuffs w.buffs r.numElems
        (w.readStream asked r).endpoint.config.elemSize.toNat } := by
  have config : (w.readStream asked r).endpoint.config = c :=
    (Endpoint.writeBuffs_config ..).trans filled.config
  change incrementBuffs w.buffs r.numElems _ = (List.range c.numChans.toNat).map fun i =>
    (w.handle, 24 + i * c.channelBytes + (w.elemsRead + r.numElems) * c.elemSize.toNat)
  rw [config, behind, incrementBuffs, List.map_map]
  apply List.map_congr_left
  intro i _
  rw [Function.comp_apply, Nat.add_mul, ← Nat.add_assoc]

theorem firstRead_done (filled : Filled c acquired w) (behind : w.Behind c)
    (room : acquired ≤ c.buffSize.toNat) (none : w.elemsRead = 0) (opened : ∀ r ∈ w.reads, r.Open)
    (reads : List DeviceRead)
    (served : ∀ p ∈ (w.firstRead mtuElems reads).returned, p.2.Serves c p.1) :
    FirstDone c acquired (w.firstRead mtuElems reads) := by
  induction reads generalizing w with
  | nil =>
    constructor
    · exact ⟨filled.config, filled.counts, filled.stored⟩
    · exact behind
    · exact fun _ => none
    · exact fun r member => opened r (List.dropLast_subset _ member)
    · exact fun some_ => absurd none some_
  | cons r rest ih =>
    have few : min mtuElems w.elemsLeft ≤ w.elemsLeft := min_le_right _ _
    have serves : r.Serves c (min mtuElems w.elemsLeft) := served _ (firstRead_first r rest)
    have stored := filled.readStream behind room few serves
    rw [firstRead] at served ⊢
    by_cases timeout : r.ret = streamTimeout
    · have nothing := DeviceRead.timeout_numElems timeout
      rw [if_pos timeout] at served ⊢
      rw [count_none nothing] at stored
      apply ih
      · exact ⟨stored.config, stored.counts, stored.stored⟩
      · exact behind
      · exact none
      · intro r' member
        rcases List.mem_append.mp member with old | new
        · exact opened r' old
        · rw [List.mem_singleton.mp new]
          exact .inl timeout
      · exact served
    · have counted : ¬ r.ret < 0 := by
        rcases serves.count with same | nonneg
        · exact absurd same timeout
        · exact Int32.not_lt.mpr nonneg
      rw [if_neg timeout, if_neg counted]
      constructor
      · exact ⟨stored.config, stored.counts, stored.stored⟩
      · exact filled.incremented behind (min mtuElems w.elemsLeft)
      · exact fun code => absurd code counted
      · intro r' member
        have old : (w.reads ++ [r]).dropLast = w.reads := List.dropLast_concat
        exact opened r' (old ▸ member)
      · intro _ loose r' member
        rcases List.mem_append.mp member with old | new
        · exact opened r' old
        · rw [List.mem_singleton.mp new]
          exact .inr loose

/-- A buffer that can be released. -/
structure Ready (c : EndpointConfig) (acquired : Nat) (w : SendWork) : Prop where
  filled : Filled c acquired w
  error : w.ret < 0 → w.elemsRead = 0
  before : ∀ r ∈ w.reads.dropLast, r.Open

theorem FirstDone.ready (first : FirstDone c acquired w) : Ready c acquired w :=
  ⟨first.filled, first.error, first.before⟩

theorem secondRead_returned (r : DeviceRead) :
    (w.secondRead r).returned =
      if w.elemsRead ≠ 0 ∧ w.elemsLeft ≠ 0 ∧ w.flags &&& trailingFlags = 0 then
        w.returned ++ [(w.elemsLeft, r)]
      else w.returned := by
  simp only [SendWork.secondRead]
  split
  · split
    · rfl
    · split <;> rfl
  · rfl

theorem FirstDone.secondRead (first : FirstDone c acquired w) (room : acquired ≤ c.buffSize.toNat)
    (served : ∀ p ∈ (w.secondRead r).returned, p.2.Serves c p.1) :
    Ready c acquired (w.secondRead r) := by
  rw [secondRead_returned] at served
  unfold SendWork.secondRead
  by_cases more : w.elemsRead ≠ 0 ∧ w.elemsLeft ≠ 0 ∧ w.flags &&& trailingFlags = 0
  · rw [if_pos more] at served ⊢
    have serves : r.Serves c w.elemsLeft :=
      served _ (List.mem_append_right _ (List.mem_singleton_self _))
    have stored := first.filled.readStream first.behind room (le_refl _) serves
    have opened := first.last more.1 more.2.2
    have old : (w.reads ++ [r]).dropLast = w.reads := List.dropLast_concat
    by_cases timeout : r.ret = streamTimeout
    · rw [count_none (DeviceRead.timeout_numElems timeout)] at stored
      have zero : ¬ (0 : Int32) < 0 := by decide
      simp only [if_pos timeout, if_neg zero]
      constructor
      · exact ⟨stored.config, stored.counts, stored.stored⟩
      · exact fun code => absurd code zero
      · exact fun r' member => opened r' (old ▸ member)
    · have counted : 0 ≤ r.ret := serves.count.resolve_left timeout
      simp only [if_neg timeout]
      by_cases some_ : 0 < r.ret
      · have taken : 0 < (w.readStream w.elemsLeft r).ret := some_
        simp only [if_pos taken]
        constructor
        · exact ⟨stored.config, stored.counts, stored.stored⟩
        · exact fun code => absurd code (Int32.not_lt.mpr counted)
        · exact fun r' member => opened r' (old ▸ member)
      · have untaken : ¬ 0 < (w.readStream w.elemsLeft r).ret := some_
        have none : r.numElems = 0 := by
          rw [Int32.lt_iff_toInt_lt] at some_
          exact Int.toNat_of_nonpos (Int.not_lt.mp some_)
        rw [count_none none] at stored
        simp only [if_neg untaken]
        constructor
        · exact ⟨stored.config, stored.counts, stored.stored⟩
        · exact fun code => absurd code (Int32.not_lt.mpr counted)
        · exact fun r' member => opened r' (old ▸ member)
  · rw [if_neg more]
    exact first.ready

theorem Ready.release (ready : Ready c acquired w) (few : c.numChans.toNat < 2 ^ 32)
    (small : acquired < 2 ^ 31) (grants : Grants) :
    (w.release grants acquired).1.Conserves c := by
  have counts := ready.filled.counts
  have config := ready.filled.config
  have size : (if w.ret < 0 then w.ret else Int32.ofNat w.elemsRead).toInt.toNat = w.elemsRead := by
    by_cases code : w.ret < 0
    · rw [if_pos code, ready.error code]
      exact Int.toNat_of_nonpos (Int.le_of_lt (Int32.lt_iff_toInt_lt.mp code))
    · rw [if_neg code, Int32.toInt_ofNat_of_lt (by omega), Int.toNat_natCast]
  constructor
  · intro i channel
    simp only [SendWork.release, Endpoint.getAddrs, List.map_map, size]
    rw [List.getD_eq_getElem?_getD, List.getElem?_map,
      List.getElem?_range (by rw [config]; exact channel)]
    simp only [Option.map_some, Option.getD_some, Function.comp_apply, config]
    rw [EndpointConfig.channelOffset_of_few few channel]
    exact ready.filled.stored i channel
  · change (if w.ret < 0 then w.ret else Int32.ofNat w.elemsRead).toInt ≤ acquired
    omega
  · exact ready.before

theorem secondRead_notes (r : DeviceRead) : w.Notes (w.secondRead r) := by
  simp only [SendWork.secondRead]
  split
  · split
    · exact ⟨_, rfl, rfl⟩
    · split
      · exact ⟨_, rfl, rfl⟩
      · exact ⟨_, rfl, rfl⟩
  · exact .refl w

theorem forward_conserves (config : w.endpoint.config = c) (few : c.numChans.toNat < 2 ^ 32)
    (room : w.elemsLeft ≤ c.buffSize.toNat) (small : w.elemsLeft < 2 ^ 31)
    (behind : w.buffs = w.endpoint.getAddrs w.handle) (none : w.elemsRead = 0)
    (noReads : w.reads = []) {turn : SendTurn}
    (served : ∀ p ∈ (w.forward mtuElems turn).2.returned, p.2.Serves c p.1) :
    (w.forward mtuElems turn).2.endpoint.config = c ∧
      (w.forward mtuElems turn).1.Conserves c := by
  have filled : Filled c w.elemsLeft w := by
    constructor
    · exact config
    · rw [none, Nat.zero_add]
    · intro i _
      rw [none, noReads, Nat.zero_mul]
      rfl
  have pointers : w.Behind c := by
    rw [Behind, behind, Endpoint.getAddrs, config, none, Nat.zero_mul]
    apply List.map_congr_left
    intro i channel
    rw [EndpointConfig.channelOffset_of_few few (List.mem_range.mp channel), Nat.add_zero]
  obtain ⟨more, returned, -⟩ :=
    secondRead_notes (w := w.firstRead mtuElems turn.firstReads) turn.secondRead
  have first : FirstDone c w.elemsLeft (w.firstRead mtuElems turn.firstReads) := by
    apply firstRead_done filled pointers room none
    · intro r member
      rw [noReads] at member
      cases member
    · intro p member
      apply served
      change p ∈ ((w.firstRead mtuElems turn.firstReads).secondRead turn.secondRead).returned
      rw [returned]
      exact List.mem_append_left _ member
  have ready := first.secondRead room (r := turn.secondRead) served
  exact ⟨ready.filled.config, ready.release few small turn.grants⟩

theorem forward_notes (mtuElems : Nat) (noReads : w.reads = []) (turn : SendTurn) :
    ∃ more, (w.forward mtuElems turn).2.returned = w.returned ++ more ∧
      (w.forward mtuElems turn).1.reads = more.map Prod.snd := by
  obtain ⟨more, returned, reads⟩ := Notes.trans (firstRead_notes (w := w) turn.firstReads)
    (secondRead_notes (w := w.firstRead mtuElems turn.firstReads) turn.secondRead)
  rw [noReads] at reads
  exact ⟨more, returned, reads⟩

theorem waitSend_config (e : Endpoint) (batches : List (List StreamDatagramHeader)) :
    (e.waitSend batches).2.config = e.config := by
  induction batches generalizing e with
  | nil => rfl
  | cons batch rest ih =>
    have received : (batch.foldl Endpoint.recvACK e).config = e.config := by
      induction batch generalizing e with
      | nil => rfl
      | cons header more again => exact again _
    rw [Endpoint.waitSend]
    split
    · exact (ih _).trans received
    · rfl

theorem toInt32_le (v : UInt64) : v.toUInt32.toInt32.toInt.toNat ≤ v.toNat := by
  have low : v.toUInt32.toNat ≤ v.toNat := by
    rw [UInt64.toNat_toUInt32]
    exact Nat.mod_le ..
  have cut : v.toUInt32.toInt32.toInt = v.toUInt32.toBitVec.toInt := rfl
  have same : v.toUInt32.toBitVec.toNat = v.toUInt32.toNat := rfl
  rw [cut, BitVec.toInt_eq_toNat_cond]
  split
  · omega
  · omega

theorem toInt_toNat_lt (v : Int32) : v.toInt.toNat < 2 ^ 31 := by
  have high := v.toInt_lt
  omega

theorem sendTurn_cases (mtuElems : Nat) (w : SendWork) (turn : SendTurn) :
    (∃ w' : SendWork, w.sendTurn mtuElems turn = (none, w') ∧
      w'.endpoint.config = w.endpoint.config ∧ w'.returned = w.returned) ∨
    (∃ w' : SendWork, w.sendTurn mtuElems turn =
        (some (w'.forward mtuElems turn).1, (w'.forward mtuElems turn).2) ∧
      w'.endpoint.config = w.endpoint.config ∧ w'.returned = w.returned ∧
      w'.elemsLeft ≤ w.endpoint.config.buffSize.toNat ∧ w'.elemsLeft < 2 ^ 31 ∧
      w'.buffs = w'.endpoint.getAddrs w'.handle ∧ w'.elemsRead = 0 ∧ w'.reads = []) := by
  have config := waitSend_config w.endpoint turn.batches
  simp only [sendTurn]
  split
  · exact .inl ⟨_, rfl, config, rfl⟩
  · rw [Endpoint.acquireSend]
    by_cases full : (w.endpoint.waitSend turn.batches).2.ring.full = true
    · simp only [if_pos full]
      exact .inl ⟨_, rfl, config, rfl⟩
    · simp only [if_neg full]
      split
      · exact .inl ⟨_, rfl, config, rfl⟩
      · refine .inr ⟨_, rfl, config, rfl, ?_, ?_, rfl, rfl, rfl⟩
        · rw [← config]
          exact toInt32_le _
        · exact toInt_toNat_lt _

theorem sendTurn_notes (mtuElems : Nat) (w : SendWork) (turn : SendTurn) :
    ∃ more, (w.sendTurn mtuElems turn).2.returned = w.returned ++ more ∧
      (w.sendTurn mtuElems turn).1.toList.flatMap (fun d => d.reads) = more.map Prod.snd := by
  rcases sendTurn_cases mtuElems w turn with
    ⟨w', same, -, kept⟩ | ⟨w', same, -, kept, -, -, -, -, none⟩
  · rw [same]
    exact ⟨[], kept.trans (List.append_nil _).symm, rfl⟩
  · obtain ⟨more, returned, reads⟩ := forward_notes mtuElems none turn
    rw [same]
    refine ⟨more, returned.trans (by rw [kept]), ?_⟩
    rw [Option.toList_some, List.flatMap_singleton, reads]

theorem sendEndpointWork_notes (mtuElems : Nat) (w : SendWork) (turns : List SendTurn) :
    ∃ more, (w.sendEndpointWork mtuElems turns).2.returned = w.returned ++ more ∧
      (w.sendEndpointWork mtuElems turns).1.flatMap (fun d => d.reads) = more.map Prod.snd := by
  induction turns generalizing w with
  | nil => exact ⟨[], (List.append_nil _).symm, rfl⟩
  | cons turn turns ih =>
    rw [sendEndpointWork]
    split
    · exact ⟨[], (List.append_nil _).symm, rfl⟩
    · obtain ⟨first, returned, reads⟩ := sendTurn_notes mtuElems w turn
      obtain ⟨later, returned', reads'⟩ := @ih (w.sendTurn mtuElems turn).2
      refine ⟨first ++ later, ?_, ?_⟩
      · rw [returned', returned, List.append_assoc]
      · rw [List.flatMap_append, reads, reads', List.map_append]

theorem sendEndpointWork_conserves (config : w.endpoint.config = c)
    (few : c.numChans.toNat < 2 ^ 32) (turns : List SendTurn)
    (served : ∀ p ∈ (w.sendEndpointWork mtuElems turns).2.returned, p.2.Serves c p.1) :
    ∀ d ∈ (w.sendEndpointWork mtuElems turns).1, d.Conserves c := by
  induction turns generalizing w with
  | nil => nofun
  | cons turn turns ih =>
    rw [sendEndpointWork] at served ⊢
    split at served
    · rename_i done
      rw [if_pos done]
      nofun
    · rename_i going
      rw [if_neg going]
      obtain ⟨later, returned, -⟩ :=
        sendEndpointWork_notes mtuElems (w.sendTurn mtuElems turn).2 turns
      have servedNow : ∀ p ∈ (w.sendTurn mtuElems turn).2.returned, p.2.Serves c p.1 := by
        intro p member
        apply served
        rw [returned]
        exact List.mem_append_left _ member
      have step : (w.sendTurn mtuElems turn).2.endpoint.config = c ∧
          ∀ d ∈ (w.sendTurn mtuElems turn).1.toList, d.Conserves c := by
        rcases sendTurn_cases mtuElems w turn with
          ⟨w', same, kept, -⟩ | ⟨w', same, kept, -, room, small, behind, none, noReads⟩
        · rw [same]
          exact ⟨kept.trans config, nofun⟩
        · rw [same] at servedNow ⊢
          rw [config] at room kept
          obtain ⟨config', conserves⟩ :=
            forward_conserves kept few room small behind none noReads servedNow
          refine ⟨config', ?_⟩
          intro d member
          rw [Option.toList_some, List.mem_singleton] at member
          rw [member]
          exact conserves
      intro d member
      rcases List.mem_append.mp member with first | rest
      · exact step.2 d first
      · exact ih step.1 served d rest

end SendWork

/-- Against a device that returns timeouts and counts, the released buffers hold for each channel
    what the device has returned, in order, none has more elements than were acquired, and what was
    returned with a trailing flag is the last in its buffer. -/
theorem forwarder_conserves (c : EndpointConfig) (few : c.numChans.toNat < 2 ^ 32) (mtuElems : Nat)
    (turns : List SendTurn)
    (served : ∀ p ∈ ((SendWork.start c).sendEndpointWork mtuElems turns).2.returned,
      p.2.Serves c p.1) :
    let sent := ((SendWork.start c).sendEndpointWork mtuElems turns).1
    let returned := ((SendWork.start c).sendEndpointWork mtuElems turns).2.returned
    (∀ i < c.numChans.toNat, (sent.flatMap fun d => d.channels.getD i []) =
      returned.flatMap fun p => p.2.elems c.elemSize.toNat i) ∧
    (∀ d ∈ sent, d.numElemsOrErr.toInt ≤ d.acquired) ∧
    ∀ d ∈ sent, ∀ before r after, d.reads = before ++ r :: after → 0 ≤ r.ret →
      r.flags &&& trailingFlags ≠ 0 → after = [] := by
  intro sent returned
  have conserves : ∀ d ∈ sent, d.Conserves c :=
    SendWork.sendEndpointWork_conserves rfl few turns served
  refine ⟨fun i channel => ?_, fun d member => (conserves d member).few, ?_⟩
  · obtain ⟨more, all, reads⟩ := SendWork.sendEndpointWork_notes mtuElems (.start c) turns
    have noted : returned.map Prod.snd = sent.flatMap fun d => d.reads := by
      rw [reads]
      exact congrArg _ all
    calc (sent.flatMap fun d => d.channels.getD i [])
      _ = sent.flatMap fun d => d.reads.flatMap fun r => r.elems c.elemSize.toNat i :=
          List.flatMap_congr fun d member => (conserves d member).channels i channel
      _ = (sent.flatMap fun d => d.reads).flatMap fun r => r.elems c.elemSize.toNat i :=
          List.flatMap_assoc.symm
      _ = returned.flatMap fun p => p.2.elems c.elemSize.toNat i := by
          rw [← noted, List.flatMap_map]
  · intro d member before r after split counted trailing
    by_contra more
    have early : r ∈ d.reads.dropLast := by
      rw [split, List.dropLast_append_cons, List.dropLast_cons_of_ne_nil more]
      exact List.mem_append_right _ (List.mem_cons_self ..)
    rcases (conserves d member).before r early with timeout | clear
    · rw [timeout] at counted
      exact absurd counted (by decide)
    · exact trailing clear

section Burst

def byteConfig : EndpointConfig := ⟨true, 1, 1, 100⟩

/-- A timeout, three elements, and at once two more with the end of the burst. -/
def burstTurn : SendTurn where
  batches := [[⟨24, 0, 8, 0, 0⟩]]
  firstReads := [⟨streamTimeout, 0, 0, fun _ => []⟩, ⟨3, 4, 100, fun _ => [1, 2, 3]⟩]
  secondRead := ⟨2, 2, 0, fun _ => [4, 5]⟩
  grants := some

theorem burst_returned : ((SendWork.start byteConfig).sendEndpointWork 10 [burstTurn]).2.returned =
    [(10, ⟨streamTimeout, 0, 0, fun _ => []⟩), (10, ⟨3, 4, 100, fun _ => [1, 2, 3]⟩),
      (25, ⟨2, 2, 0, fun _ => [4, 5]⟩)] := rfl

theorem burst_forwarded :
    (((SendWork.start byteConfig).sendEndpointWork 10 [burstTurn]).1.flatMap
      fun d => d.channels.getD 0 []) = [1, 2, 3, 4, 5] := by
  have served : ∀ p ∈ ((SendWork.start byteConfig).sendEndpointWork 10 [burstTurn]).2.returned,
      p.2.Serves byteConfig p.1 := by
    rw [burst_returned]
    intro p member
    simp only [List.mem_cons, List.not_mem_nil, or_false] at member
    rcases member with rfl | rfl | rfl
    · exact ⟨.inl rfl, by decide, fun _ _ => ⟨Nat.le_of_ble_eq_true rfl, Nat.le_of_ble_eq_true rfl⟩⟩
    · exact ⟨.inr (by decide), by decide,
        fun _ _ => ⟨Nat.le_of_ble_eq_true rfl, Nat.le_of_ble_eq_true rfl⟩⟩
    · exact ⟨.inr (by decide), by decide,
        fun _ _ => ⟨Nat.le_of_ble_eq_true rfl, Nat.le_of_ble_eq_true rfl⟩⟩
  have same := (forwarder_conserves byteConfig (by decide) 10 [burstTurn] served).1 0 (by decide)
  rw [same, burst_returned]
  rfl

end Burst

end Soapy.Remote
