import Soapy.Remote.SampleFormats
import Soapy.Remote.StreamRecords

/-! # Reading a stream in fragments

`readStream` takes as many elements as its caller has room for. A datagram with more of them stays
acquired, and the calls after that go on behind the elements that were taken.
-/

namespace Soapy.Remote

open Lib

/-- `SOAPY_SDR_MORE_FRAGMENTS`. -/
def moreFragments : Int32 := 32

/-- What `setupStream` chooses. The endpoint is made for the elements of the remote format. -/
structure StreamSetup where
  convertType : ConvertTypes
  scaleFactor : Rat
  config : EndpointConfig
  remote : convertType.wireSize config.elemSize.toNat = config.elemSize.toNat

structure ClientStreamData (setup : StreamSetup) where
  endpoint : Endpoint
  recvBuffs : List BuffPointer
  readHandle : BuffHandle
  readElemsLeft : Nat

@[ext] structure Datagram (setup : StreamSetup) where
  handle : BuffHandle
  numElems : Nat
  flags : Int32
  timeNs : Int64
  channels : List (List setup.convertType.User)

/-- What a call gives its caller, and what it acquires and releases for that. -/
structure Read (setup : StreamSetup) where
  ret : Int32
  flags : Int32
  timeNs : Int64
  buffs : List (List setup.convertType.User)
  acquired : Option (Datagram setup)
  released : Option BuffHandle

/-- The arguments of a call, and whether something arrives in time. -/
structure ReadCall where
  numElems : Nat
  flags : Int32
  timeNs : Int64
  ready : Bool

namespace ClientStreamData

variable {setup : StreamSetup}

/-- The stream after `setupStream`. -/
def fresh (setup : StreamSetup) (actualWindow : Int32) : ClientStreamData setup where
  endpoint := (Endpoint.makeRecv setup.config actualWindow).2
  recvBuffs := List.replicate setup.config.numChans.toNat (0, 0)
  readHandle := 0
  readElemsLeft := 0

/-- What `convertRecvBuffs` writes to the buffers of the user. -/
def converted (d : ClientStreamData setup) (numElems : Nat) : List (List setup.convertType.User) :=
  let elemSize := d.endpoint.config.elemSize.toNat
  convertRecvBuffs setup.convertType setup.scaleFactor elemSize
    (d.recvBuffs.map fun p =>
      (d.endpoint.buff p.1).load p.2 (numElems * setup.convertType.wireSize elemSize)) numElems

def acquireReadBuffer (d : ClientStreamData setup) (arrivals : Arrivals) (call : ReadCall) :
    Option ((Int32 × Int32 × Int64) × ClientStreamData setup × Arrivals) :=
  let e := d.endpoint.waitRecv.2
  if !call.ready then
    some ((streamTimeout, call.flags, call.timeNs), { d with endpoint := e }, arrivals)
  else
    match e.acquireRecv arrivals with
    | none => none
    | some (⟨ret, none, _⟩, e, rest) =>
      some ((ret, call.flags, call.timeNs), { d with endpoint := e }, rest)
    | some (⟨ret, some (handle, flags, timeNs), _⟩, e, rest) =>
      some ((ret, flags, timeNs),
        { d with endpoint := e, readHandle := handle, recvBuffs := e.getAddrs handle }, rest)

def releaseReadBuffer (d : ClientStreamData setup) (handle : BuffHandle) : ClientStreamData setup :=
  { d with endpoint := d.endpoint.releaseRecv handle }

/-- The part of `readStream` behind the direct buffer access. -/
def readBuffer (d : ClientStreamData setup) (numElems : Nat) (flags : Int32) (timeNs : Int64)
    (acquired : Option (Datagram setup)) : Read setup × ClientStreamData setup :=
  let numSamples := min numElems d.readElemsLeft
  let buffs := d.converted numSamples
  let left := d.readElemsLeft - numSamples
  if left = 0 then
    (⟨.ofNat numSamples, flags, timeNs, buffs, acquired, some d.readHandle⟩,
      { d with readElemsLeft := left }.releaseReadBuffer d.readHandle)
  else
    let offsetBytes := d.endpoint.config.elemSize.toNat * numSamples
    (⟨.ofNat numSamples, flags ||| moreFragments, timeNs, buffs, acquired, none⟩,
      { d with
        readElemsLeft := left
        recvBuffs := d.recvBuffs.map fun p => (p.1, p.2 + offsetBytes) })

def datagram (d : ClientStreamData setup) (flags : Int32) (timeNs : Int64) : Datagram setup :=
  ⟨d.readHandle, d.readElemsLeft, flags, timeNs, d.converted d.readElemsLeft⟩

def countElems (d : ClientStreamData setup) (ret : Int32) : ClientStreamData setup :=
  { d with readElemsLeft := ret.toInt.toNat }

def readStream (d : ClientStreamData setup) (arrivals : Arrivals) (call : ReadCall) :
    Option (Read setup × ClientStreamData setup × Arrivals) :=
  if d.readElemsLeft = 0 then
    match d.acquireReadBuffer arrivals call with
    | none => none
    | some ((ret, flags, timeNs), d, rest) =>
      if ret < 0 then some (⟨ret, flags, timeNs, [], none, none⟩, d, rest)
      else
        let d := d.countElems ret
        let done := d.readBuffer call.numElems flags timeNs (some (d.datagram flags timeNs))
        some (done.1, done.2, rest)
  else
    let done := d.readBuffer call.numElems call.flags call.timeNs none
    some (done.1, done.2, arrivals)

def readCalls (d : ClientStreamData setup) (arrivals : Arrivals) :
    List ReadCall → Option (List (Read setup) × ClientStreamData setup × Arrivals)
  | [] => some ([], d, arrivals)
  | call :: calls =>
    match d.readStream arrivals call with
    | none => none
    | some (read, d, rest) =>
      match d.readCalls rest calls with
      | none => none
      | some (reads, d, rest) => some (read :: reads, d, rest)

end ClientStreamData

namespace Read

variable {setup : StreamSetup}

/-- What the calls have put into the buffer of a channel. -/
def delivered (reads : List (Read setup)) (c : Nat) : List setup.convertType.User :=
  reads.flatMap fun read => read.buffs.getD c []

def received (reads : List (Read setup)) (c : Nat) : List setup.convertType.User :=
  (reads.filterMap (fun read => read.acquired)).flatMap fun datagram => datagram.channels.getD c []

def handlesAcquired (reads : List (Read setup)) : List BuffHandle :=
  (reads.filterMap (fun read => read.acquired)).map (fun datagram => datagram.handle)

def handlesReleased (reads : List (Read setup)) : List BuffHandle :=
  reads.filterMap (fun read => read.released)

variable (read : Read setup) (reads : List (Read setup)) (c : Nat)

theorem received_cons :
    received (read :: reads) c = received [read] c ++ received reads c := by
  rw [received, ← List.singleton_append, List.filterMap_append, List.flatMap_append]
  rfl

theorem delivered_cons :
    delivered (read :: reads) c = delivered [read] c ++ delivered reads c := by
  rw [delivered, ← List.singleton_append, List.flatMap_append]
  rfl

theorem handlesAcquired_cons :
    handlesAcquired (read :: reads) = handlesAcquired [read] ++ handlesAcquired reads := by
  rw [handlesAcquired, ← List.singleton_append, List.filterMap_append, List.map_append]
  rfl

theorem handlesReleased_cons :
    handlesReleased (read :: reads) = handlesReleased [read] ++ handlesReleased reads := by
  rw [handlesReleased, ← List.singleton_append, List.filterMap_append]
  rfl

@[simp] theorem delivered_singleton :
    delivered [read] c = read.buffs.getD c [] :=
  List.append_nil _

@[simp] theorem received_singleton :
    received [read] c =
      (read.acquired.map fun datagram => datagram.channels.getD c []).getD [] := by
  cases acquired : read.acquired with
  | none => simp [received, acquired]
  | some datagram => simp [received, acquired]

@[simp] theorem handlesAcquired_singleton :
    handlesAcquired [read] = (read.acquired.map fun datagram => datagram.handle).toList := by
  cases acquired : read.acquired with
  | none => simp [handlesAcquired, acquired]
  | some datagram => simp [handlesAcquired, acquired]

@[simp] theorem handlesReleased_singleton :
    handlesReleased [read] = read.released.toList := by
  cases released : read.released with
  | none => simp [handlesReleased, released]
  | some h => simp [handlesReleased, released]

/-- A call with so many elements before it takes what its caller has room for, and adds the flag
    when that leaves some. -/
structure Answers (read : Read setup) (left numElems : Nat) (flags : Int32) : Prop where
  ret : read.ret.toInt = min numElems left
  flags : read.flags = if numElems < left then flags ||| moreFragments else flags
  released : read.released.isSome = !decide (numElems < left)

end Read

def Datagram.ofRecord (setup : StreamSetup) (handle : BuffHandle) (record : Bytes) :
    Datagram setup :=
  let header := StreamDatagramHeader.decode record
  let numElems := header.elems.toInt32.toInt.toNat
  let elemSize := setup.config.elemSize.toNat
  ⟨handle, numElems, header.flags, header.time,
    (List.range setup.config.numChans.toNat).map fun i =>
      setup.convertType.recvElems setup.scaleFactor elemSize numElems
        ((record.drop (setup.config.channelOffset (UInt64.ofNat i)).toNat).take
          (numElems * elemSize))⟩

structure HoldsElements (c : EndpointConfig) (record : Bytes) : Prop where
  counted : 0 ≤ (StreamDatagramHeader.decode record).elems.toInt32
  enough : (StreamDatagramHeader.decode record).bytes.toNat ≤ record.length
  inside : ∀ i < c.numChans.toNat, (c.channelOffset (UInt64.ofNat i)).toNat +
    (StreamDatagramHeader.decode record).elems.toInt32.toInt.toNat * c.elemSize.toNat ≤
      (StreamDatagramHeader.decode record).bytes.toNat

namespace ConvertTypes

variable {t : ConvertTypes} {s : Rat} {elemSize : Nat}

variable (bs : Bytes)

theorem recv_take :
    t.recv s elemSize (bs.take (t.wireSize elemSize)) = t.recv s elemSize bs := by
  cases t with
  | memcpy => simp [recv, wireSize]
  | cf32_cs16 => simp [recv, wireSize, shortAt, List.take_take, List.drop_take]
  | cf32_cs12 | cs16_cs12 | cs16_cs8 | cf32_cs8 | cf32_cu8 =>
    simp [recv, wireSize, unpack12, charAt, List.getD_eq_getElem?_getD]

theorem recvElems_take (n : Nat) :
    t.recvElems s elemSize n (bs.take (n * t.wireSize elemSize)) = t.recvElems s elemSize n bs := by
  induction n generalizing bs with
  | zero => rfl
  | succ n ih =>
    have first : t.recv s elemSize (bs.take ((n + 1) * t.wireSize elemSize)) =
        t.recv s elemSize bs := by
      rw [← recv_take, List.take_take, Nat.min_eq_left (Nat.le_mul_of_pos_left _ n.succ_pos),
        recv_take]
    have next : (bs.take ((n + 1) * t.wireSize elemSize)).drop (t.wireSize elemSize) =
        (bs.drop (t.wireSize elemSize)).take (n * t.wireSize elemSize) := by
      rw [List.drop_take, Nat.succ_mul, Nat.add_sub_cancel]
    simp only [recvElems, first, next, ih]

theorem recvElems_add (n k : Nat) :
    t.recvElems s elemSize (n + k) bs =
      t.recvElems s elemSize n bs ++
        t.recvElems s elemSize k (bs.drop (n * t.wireSize elemSize)) := by
  induction n generalizing bs with
  | zero => simp [recvElems]
  | succ n ih =>
    have behind : (bs.drop (t.wireSize elemSize)).drop (n * t.wireSize elemSize) =
        bs.drop ((n + 1) * t.wireSize elemSize) := by
      rw [List.drop_drop, Nat.succ_mul, Nat.add_comm]
    rw [Nat.succ_add, recvElems, recvElems, ih, behind, List.cons_append]

end ConvertTypes

namespace ClientStreamData

variable {setup : StreamSetup} {d : ClientStreamData setup} {c : Nat}

def elemsAt (d : ClientStreamData setup) (numElems : Nat) (p : BuffPointer) :
    List setup.convertType.User :=
  let elemSize := d.endpoint.config.elemSize.toNat
  setup.convertType.recvElems setup.scaleFactor elemSize numElems
    ((d.endpoint.buff p.1).load p.2 (numElems * setup.convertType.wireSize elemSize))

theorem converted_eq (numElems : Nat) :
    d.converted numElems = d.recvBuffs.map (d.elemsAt numElems) := by
  simp only [converted, convertRecvBuffs, List.map_map]
  rfl

theorem elemsAt_add (n k : Nat) (p : BuffPointer) :
    d.elemsAt (n + k) p = d.elemsAt n p ++ d.elemsAt k
      (p.1, p.2 + n * setup.convertType.wireSize d.endpoint.config.elemSize.toNat) := by
  have front : n * setup.convertType.wireSize d.endpoint.config.elemSize.toNat ≤
      (n + k) * setup.convertType.wireSize d.endpoint.config.elemSize.toNat :=
    Nat.mul_le_mul_right _ (Nat.le_add_right n k)
  rw [elemsAt, ConvertTypes.recvElems_add, Memory.load_drop, ← ConvertTypes.recvElems_take,
    Memory.load_take front, Nat.add_mul, Nat.add_sub_cancel_left]
  rfl

def behind (d : ClientStreamData setup) (c : Nat) : List setup.convertType.User :=
  (d.converted d.readElemsLeft).getD c []

def held (d : ClientStreamData setup) : List BuffHandle :=
  if d.readElemsLeft = 0 then [] else [d.readHandle]

theorem converted_zero : (d.converted 0).getD c [] = [] := by
  rw [converted_eq, List.getD_eq_getElem?_getD, List.getElem?_map]
  cases d.recvBuffs[c]? with
  | none | some p => rfl

theorem behind_none (none : d.readElemsLeft = 0) : d.behind c = [] := by
  rw [behind, none, converted_zero]

theorem converted_add (remote : setup.convertType.wireSize d.endpoint.config.elemSize.toNat =
      d.endpoint.config.elemSize.toNat) (n k : Nat) :
    (d.converted (n + k)).getD c [] = (d.converted n).getD c [] ++
      (converted { d with recvBuffs := d.recvBuffs.map fun p =>
        (p.1, p.2 + d.endpoint.config.elemSize.toNat * n) } k).getD c [] := by
  simp only [converted_eq, List.getD_eq_getElem?_getD, List.getElem?_map]
  cases d.recvBuffs[c]? with
  | none => rfl
  | some p =>
    have pointer : d.endpoint.config.elemSize.toNat * n =
        n * setup.convertType.wireSize d.endpoint.config.elemSize.toNat := by
      rw [remote, Nat.mul_comm]
    simp only [Option.map_some, Option.getD_some, elemsAt_add, pointer]
    rfl

/-- Only the buffer of `readHandle` is acquired. -/
structure Holding (d : ClientStreamData setup) : Prop where
  config : d.endpoint.config = setup.config
  valid : d.endpoint.ring.Valid
  held : ∀ h, d.endpoint.ring.acquired h = true ↔ h = d.readHandle
  few : d.readElemsLeft < 2 ^ 31
  pointers : d.recvBuffs.length = setup.config.numChans.toNat

structure Inv (d : ClientStreamData setup) : Prop where
  config : d.endpoint.config = setup.config
  valid : d.endpoint.ring.Valid
  held : ∀ h, d.endpoint.ring.acquired h = true ↔ d.readElemsLeft ≠ 0 ∧ h = d.readHandle
  few : d.readElemsLeft < 2 ^ 31
  pointers : d.recvBuffs.length = setup.config.numChans.toNat

theorem Inv.holding (inv : d.Inv) (more : d.readElemsLeft ≠ 0) : d.Holding where
  config := inv.config
  valid := inv.valid
  held h := by rw [inv.held, and_iff_right more]
  few := inv.few
  pointers := inv.pointers

theorem Inv.fresh (actualWindow : Int32) : (fresh setup actualWindow).Inv where
  config := rfl
  valid := HandleRing.Valid.init
  held h := by simp [ClientStreamData.fresh, Endpoint.makeRecv, Endpoint.sendACK, Endpoint.fresh,
    HandleRing.init]
  few := Nat.two_pow_pos 31
  pointers := List.length_replicate

theorem Inv.room (inv : d.Inv) (none : d.readElemsLeft = 0) : d.endpoint.ring.full = false := by
  have back : ∀ h, d.endpoint.ring.acquired h = false := by
    intro h
    have free := inv.held h
    simpa [none] using free
  have empty := inv.valid.empty back
  simp [HandleRing.full, empty, numBuffs]

section ReadBuffer

variable {numElems : Nat} {flags : Int32} {timeNs : Int64} {acquired : Option (Datagram setup)}

theorem readBuffer_left : (d.readBuffer numElems flags timeNs acquired).2.readElemsLeft =
    d.readElemsLeft - min numElems d.readElemsLeft := by
  simp only [readBuffer]
  split <;> rfl

theorem readBuffer_behind (holding : d.Holding) :
    d.behind c = (d.readBuffer numElems flags timeNs acquired).1.buffs.getD c [] ++
      (d.readBuffer numElems flags timeNs acquired).2.behind c := by
  have remote : setup.convertType.wireSize d.endpoint.config.elemSize.toNat =
      d.endpoint.config.elemSize.toNat := by
    rw [holding.config, setup.remote]
  have parts : d.readElemsLeft =
      min numElems d.readElemsLeft + (d.readElemsLeft - min numElems d.readElemsLeft) := by omega
  unfold readBuffer
  by_cases last : d.readElemsLeft - min numElems d.readElemsLeft = 0
  · have all : min numElems d.readElemsLeft = d.readElemsLeft := by omega
    have nothing : (d.readBuffer numElems flags timeNs acquired).2.behind c = [] :=
      behind_none (readBuffer_left.trans last)
    unfold readBuffer at nothing
    rw [if_pos last] at nothing ⊢
    rw [nothing, List.append_nil, behind, all]
  · rw [if_neg last, behind]
    conv_lhs => rw [parts, converted_add remote]
    rfl

theorem readBuffer_inv (holding : d.Holding) :
    (d.readBuffer numElems flags timeNs acquired).2.Inv := by
  have few := holding.few
  unfold readBuffer
  by_cases last : d.readElemsLeft - min numElems d.readElemsLeft = 0
  · rw [if_pos last]
    constructor
    · exact holding.config
    · exact holding.valid.release _
    · intro h
      have out := holding.held h
      simp only [releaseReadBuffer, Endpoint.releaseRecv, HandleRing.release, last,
        Function.update_apply]
      by_cases same : h = d.readHandle
      · simp [same]
      · simpa [same] using out
    · exact last.trans_lt (by decide)
    · exact holding.pointers
  · rw [if_neg last]
    constructor
    · exact holding.config
    · exact holding.valid
    · intro h
      exact (holding.held h).trans (and_iff_right last).symm
    · exact (Nat.sub_le _ _).trans_lt few
    · exact (List.length_map _).trans holding.pointers

theorem readBuffer_held :
    [d.readHandle] = (d.readBuffer numElems flags timeNs acquired).1.released.toList ++
      (d.readBuffer numElems flags timeNs acquired).2.held := by
  unfold readBuffer held
  by_cases last : d.readElemsLeft - min numElems d.readElemsLeft = 0
  · simp [last, releaseReadBuffer]
  · simp [last]

theorem readBuffer_acquired :
    (d.readBuffer numElems flags timeNs acquired).1.acquired = acquired := by
  simp only [readBuffer]
  split <;> rfl

theorem readBuffer_answers (few : d.readElemsLeft < 2 ^ 31) :
    (d.readBuffer numElems flags timeNs acquired).1.Answers d.readElemsLeft numElems flags := by
  have ret : (Int32.ofNat (min numElems d.readElemsLeft)).toInt = min numElems d.readElemsLeft := by
    rw [Int32.toInt_ofNat_of_lt (by omega)]
  unfold readBuffer
  by_cases more : numElems < d.readElemsLeft
  · have some_ : ¬ d.readElemsLeft - min numElems d.readElemsLeft = 0 := by omega
    rw [if_neg some_]
    constructor
    · exact ret
    · rw [if_pos more]
    · rw [decide_eq_true more]
      rfl
  · have last : d.readElemsLeft - min numElems d.readElemsLeft = 0 := by omega
    rw [if_pos last]
    constructor
    · exact ret
    · rw [if_neg more]
    · rw [decide_eq_false more]
      rfl

end ReadBuffer

variable {d' : ClientStreamData setup}

section Acquire

variable {arrivals rest : Arrivals} {call : ReadCall}

variable (e : Endpoint)

@[simp] theorem waitRecv_ring : e.waitRecv.2.ring = e.ring := by
  unfold Endpoint.waitRecv
  split <;> rfl

@[simp] theorem waitRecv_config : e.waitRecv.2.config = e.config := by
  unfold Endpoint.waitRecv
  split <;> rfl

theorem accept_config (h : BuffHandle) : (e.accept h).2.config = e.config := by
  simp only [Endpoint.accept, Endpoint.trackSequence, Endpoint.sendACK]
  split <;> split <;> rfl

theorem acquireRecv_handle {e e' : Endpoint} {got : Endpoint.Acquired}
    (returns : e.acquireRecv arrivals = some (got, e', rest)) :
    e'.config = e.config ∧
      ((got.ret < 0 ∧ e'.ring = e.ring) ∨
        (0 ≤ got.ret ∧ e.ring.full = false ∧ e'.ring = e.ring.acquire ∧
          ∃ flags timeNs, got.outputs = some (e.ring.nextHandleAcquire, flags, timeNs))) := by
  rcases Endpoint.acquireRecv_cases returns with ⟨-, rfl, rfl⟩ | ⟨-, rfl, same⟩ | accepted
  · exact ⟨rfl, .inl ⟨by decide, rfl⟩⟩
  · obtain ⟨_, _, _, rfl⟩ := same
    exact ⟨rfl, .inl ⟨by decide, rfl⟩⟩
  · obtain ⟨room, mid, same, rfl, rfl⟩ := accepted
    have ring := Endpoint.accept_ring (e := mid) (h := e.ring.nextHandleAcquire)
    have before : mid.config = e.config ∧ mid.ring = e.ring := by
      obtain ⟨_, _, _, rfl⟩ := same
      exact ⟨rfl, rfl⟩
    rw [accept_config, before.1]
    rw [before.2] at ring
    refine ⟨rfl, ?_⟩
    by_cases counted : 0 ≤ (mid.accept e.ring.nextHandleAcquire).1.ret
    · rw [if_pos counted] at ring
      exact .inr ⟨counted, room, ring, _, _, rfl⟩
    · rw [if_neg counted] at ring
      exact .inl ⟨Int32.not_le.mp counted, ring⟩

theorem acquireReadBuffer_inv {ret flags : Int32} {timeNs : Int64}
    (inv : d.Inv) (none : d.readElemsLeft = 0)
    (returns : d.acquireReadBuffer arrivals call = some ((ret, flags, timeNs), d', rest)) :
    d'.readElemsLeft = 0 ∧ (ret < 0 → d'.Inv) ∧
      (¬ ret < 0 → (d'.countElems ret).Holding) := by
  simp only [acquireReadBuffer] at returns
  split at returns
  · cases returns
    refine ⟨none, fun _ => ?_, fun counted => absurd (by decide) counted⟩
    constructor
    · exact (waitRecv_config _).trans inv.config
    · simpa using inv.valid
    · simpa using inv.held
    · exact inv.few
    · exact inv.pointers
  · split at returns
    · cases returns
    · rename_i received
      cases returns
      obtain ⟨config, out⟩ := acquireRecv_handle received
      rw [waitRecv_config] at config
      rcases out with ⟨code, ring⟩ | ⟨_, _, _, _, _, outputs⟩
      · rw [waitRecv_ring] at ring
        refine ⟨none, fun _ => ?_, fun counted => absurd code counted⟩
        constructor
        · exact config.trans inv.config
        · exact ring ▸ inv.valid
        · exact ring ▸ inv.held
        · exact inv.few
        · exact inv.pointers
      · cases outputs
    · rename_i received
      cases returns
      obtain ⟨config, out⟩ := acquireRecv_handle received
      rw [waitRecv_config] at config
      rw [waitRecv_ring] at out
      have free (h : BuffHandle) : d.endpoint.ring.acquired h = false := by
        have held := inv.held h
        simpa [none] using held
      rcases out with ⟨code, ring⟩ | ⟨counted, room, ring, _, _, outputs⟩
      · refine ⟨none, fun _ => ?_, fun counted => absurd code counted⟩
        constructor
        · exact config.trans inv.config
        · exact ring ▸ inv.valid
        · intro h
          simp [ring, free, none]
        · exact inv.few
        · rw [Endpoint.getAddrs_length, config, inv.config]
      · refine ⟨none, fun code => absurd code (Int32.not_lt.mpr counted), fun _ => ?_⟩
        cases outputs
        constructor
        · exact config.trans inv.config
        · exact ring ▸ inv.valid.acquire room
        · intro h
          change _ = true ↔ h = d.endpoint.ring.nextHandleAcquire
          simp [countElems, ring, HandleRing.acquire, Function.update_apply, free]
        · have high := ret.toInt_lt
          have nonneg := Int32.le_iff_toInt_le.mp counted
          change 0 ≤ ret.toInt at nonneg
          change ret.toInt.toNat < 2 ^ 31
          omega
        · exact (Endpoint.getAddrs_length _ _).trans (by rw [config, inv.config])

end Acquire

section Calls

variable {arrivals rest : Arrivals} {call : ReadCall}

/-- What a call does, from what is left for a channel and the handle that is out to the next. -/
structure Conserves (d : ClientStreamData setup) (reads : List (Read setup))
    (d' : ClientStreamData setup) : Prop where
  elems : ∀ c, d.behind c ++ Read.received reads c = Read.delivered reads c ++ d'.behind c
  handles : d.held ++ Read.handlesAcquired reads = Read.handlesReleased reads ++ d'.held

theorem Conserves.refl (d : ClientStreamData setup) : d.Conserves [] d where
  elems _ := List.append_nil _
  handles := List.append_nil _

theorem Conserves.cons {read : Read setup} {reads : List (Read setup)}
    {d'' : ClientStreamData setup} (first : d.Conserves [read] d')
    (later : d'.Conserves reads d'') : d.Conserves (read :: reads) d'' where
  elems c := by
    rw [Read.received_cons, Read.delivered_cons, ← List.append_assoc, first.elems,
      List.append_assoc, later.elems, List.append_assoc]
  handles := by
    rw [Read.handlesAcquired_cons, Read.handlesReleased_cons, ← List.append_assoc, first.handles,
      List.append_assoc, later.handles, List.append_assoc]

theorem readStream_conserves {read : Read setup} (inv : d.Inv)
    (returns : d.readStream arrivals call = some (read, d', rest)) :
    d'.Inv ∧ d.Conserves [read] d' := by
  rw [readStream] at returns
  by_cases none : d.readElemsLeft = 0
  · rw [if_pos none] at returns
    have noneLeft (c : Nat) : d.behind c = [] := behind_none none
    have noneHeld : d.held = [] := if_pos none
    split at returns
    · cases returns
    · rename_i ret flags timeNs mid rest' acquires
      obtain ⟨left, code, counted⟩ := acquireReadBuffer_inv inv none acquires
      by_cases negative : ret < 0
      · rw [if_pos negative] at returns
        simp only [Option.some.injEq, Prod.mk.injEq] at returns
        obtain ⟨rfl, rfl, rfl⟩ := returns
        have stillNone (c : Nat) : mid.behind c = [] := behind_none left
        have stillFree : mid.held = [] := if_pos left
        refine ⟨code negative, fun c => ?_, ?_⟩
        · simp [noneLeft, stillNone]
        · simp [noneHeld, stillFree]
      · rw [if_neg negative] at returns
        simp only [Option.some.injEq, Prod.mk.injEq] at returns
        obtain ⟨rfl, rfl, rfl⟩ := returns
        have holding := counted negative
        refine ⟨readBuffer_inv holding, fun c => ?_, ?_⟩
        · rw [noneLeft, Read.received_singleton, readBuffer_acquired, Read.delivered_singleton]
          exact readBuffer_behind holding
        · rw [noneHeld, Read.handlesAcquired_singleton, readBuffer_acquired,
            Read.handlesReleased_singleton]
          exact readBuffer_held
  · rw [if_neg none] at returns
    simp only [Option.some.injEq, Prod.mk.injEq] at returns
    obtain ⟨rfl, rfl, rfl⟩ := returns
    have holding := inv.holding none
    refine ⟨readBuffer_inv holding, fun c => ?_, ?_⟩
    · rw [Read.received_singleton, readBuffer_acquired, Read.delivered_singleton]
      exact (List.append_nil _).trans (readBuffer_behind holding)
    · rw [held, if_neg none, Read.handlesAcquired_singleton, readBuffer_acquired,
        Read.handlesReleased_singleton]
      exact readBuffer_held

theorem readCalls_conserves {calls : List ReadCall} {reads : List (Read setup)} (inv : d.Inv)
    (returns : d.readCalls arrivals calls = some (reads, d', rest)) :
    d'.Inv ∧ d.Conserves reads d' := by
  induction calls generalizing d arrivals reads with
  | nil =>
    cases returns
    exact ⟨inv, .refl _⟩
  | cons call calls ih =>
    rw [readCalls] at returns
    split at returns
    · cases returns
    · rename_i first
      split at returns
      · cases returns
      · rename_i later
        cases returns
        obtain ⟨between, conserves⟩ := readStream_conserves inv first
        obtain ⟨after, conserves'⟩ := ih between later
        exact ⟨after, conserves.cons conserves'⟩

theorem readStream_continues (inv : d.Inv) (more : d.readElemsLeft ≠ 0) (arrivals : Arrivals)
    (call : ReadCall) :
    ∃ read d', d.readStream arrivals call = some (read, d', arrivals) ∧ read.acquired = none ∧
      read.Answers d.readElemsLeft call.numElems call.flags ∧
      d'.readElemsLeft = d.readElemsLeft - call.numElems := by
  refine ⟨_, _, if_neg more, readBuffer_acquired, readBuffer_answers inv.few, ?_⟩
  rw [readBuffer_left]
  omega

theorem datagram_of_record (config : d.endpoint.config = setup.config) {record : Bytes} {size : Nat}
    {h : BuffHandle} (holds : HoldsElements setup.config record)
    (whole : (StreamDatagramHeader.decode record).bytes.toNat ≤ size)
    {m : Memory} (filled : d.endpoint.buff h = m.store 0 (record.take size))
    (inside : size ≤ record.length) (handle : d.readHandle = h)
    (pointers : d.recvBuffs = d.endpoint.getAddrs h)
    (count : d.readElemsLeft = (StreamDatagramHeader.decode record).elems.toInt32.toInt.toNat) :
    d.datagram (StreamDatagramHeader.decode record).flags
        (StreamDatagramHeader.decode record).time =
      .ofRecord setup h record := by
  rw [datagram, Datagram.ofRecord, converted_eq, pointers, Endpoint.getAddrs, List.map_map, handle,
    count, config]
  congr 1
  apply List.map_congr_left
  intro i channel
  have room := holds.inside i (List.mem_range.mp channel)
  have stored := Memory.load_store m 0 (setup.config.channelOffset (UInt64.ofNat i)).toNat
    ((StreamDatagramHeader.decode record).elems.toInt32.toInt.toNat * setup.config.elemSize.toNat)
    (record.take size) (by rw [List.length_take]; omega)
  rw [Nat.zero_add, List.drop_take, List.take_take, Nat.min_eq_left (by omega)] at stored
  simp only [Function.comp_apply, elemsAt, filled, config, setup.remote, stored]

theorem readStream_record (inv : d.Inv) (none : d.readElemsLeft = 0) (ready : call.ready = true)
    {record : Bytes} (arrives : Arrives setup.config record arrivals)
    (holds : HoldsElements setup.config record) (more : Arrivals) :
    ∃ h read d' rest, d.readStream (arrivals ++ more) call = some (read, d', rest ++ more) ∧
      read.acquired = some (.ofRecord setup h record) ∧
      read.Answers (StreamDatagramHeader.decode record).elems.toInt32.toInt.toNat call.numElems
        (StreamDatagramHeader.decode record).flags ∧
      d'.readElemsLeft =
        (StreamDatagramHeader.decode record).elems.toInt32.toInt.toNat - call.numElems := by
  have config : d.endpoint.waitRecv.2.config = setup.config := (waitRecv_config _).trans inv.config
  have room : d.endpoint.waitRecv.2.ring.full = false := by
    rw [waitRecv_ring]
    exact inv.room none
  rw [← config] at arrives
  obtain ⟨size, writes, later, header, inside, whole, -, received⟩ :=
    Endpoint.acquireRecv_arrives room arrives holds.enough
  replace received := Endpoint.acquireRecv_append more received
  set h := d.endpoint.waitRecv.2.ring.nextHandleAcquire with next
  set filled := d.endpoint.waitRecv.2.filled h (record.take size) writes with fills
  have shown : filled.header h = .decode record :=
    Endpoint.filled_take_header header (header.trans inside)
  set mid : ClientStreamData setup :=
    { d with endpoint := (filled.accept h).2, readHandle := h,
             recvBuffs := (filled.accept h).2.getAddrs h } with mid_eq
  have acquires : d.acquireReadBuffer (arrivals ++ more) call =
      some (((StreamDatagramHeader.decode record).elems.toInt32,
        (StreamDatagramHeader.decode record).flags, (StreamDatagramHeader.decode record).time),
          mid, later ++ more) := by
    rw [← shown]
    simp only [acquireReadBuffer, ready, received]
    rfl
  have counted : ¬ (StreamDatagramHeader.decode record).elems.toInt32 < 0 :=
    Int32.not_lt.mpr holds.counted
  obtain ⟨-, -, holding⟩ := acquireReadBuffer_inv inv none acquires
  have behind := datagram_of_record (d := mid.countElems _) (h := h)
    (holding counted).config holds whole (m := d.endpoint.waitRecv.2.buff h) (by
      change (filled.accept h).2.buff h = _
      rw [Endpoint.accept_buff]
      exact Endpoint.filled_buff _ _) inside rfl rfl rfl
  set done := (mid.countElems (StreamDatagramHeader.decode record).elems.toInt32).readBuffer
    call.numElems (StreamDatagramHeader.decode record).flags
    (StreamDatagramHeader.decode record).time (some (.ofRecord setup h record))
  refine ⟨h, done.1, done.2, later, ?_, readBuffer_acquired, ?_, ?_⟩
  · rw [readStream, if_pos none, acquires]
    simp only [if_neg counted, behind]
    rfl
  · exact readBuffer_answers (holding counted).few
  · rw [readBuffer_left]
    change (StreamDatagramHeader.decode record).elems.toInt32.toInt.toNat -
      min _ (StreamDatagramHeader.decode record).elems.toInt32.toInt.toNat = _
    omega

theorem Inv.behind_length (inv : d.Inv) (channel : c < setup.config.numChans.toNat) :
    (d.behind c).length = d.readElemsLeft := by
  have pointer : c < d.recvBuffs.length := inv.pointers.symm ▸ channel
  rw [behind, converted_eq, List.getD_eq_getElem?_getD, List.getElem?_map,
    List.getElem?_eq_getElem pointer]
  exact recvElems_length ..

end Calls

end ClientStreamData

/-- The elements delivered for a channel and those left are those of the datagrams received. The
    handles acquired are those released and the one that is out while elements are left. A call goes
    on with what is left, and otherwise takes the record which arrives. -/
theorem fragments_conserved (setup : StreamSetup) (actualWindow : Int32) (arrivals : Arrivals)
    (calls : List ReadCall) (reads : List (Read setup)) (d : ClientStreamData setup)
    (rest : Arrivals)
    (returns : (ClientStreamData.fresh setup actualWindow).readCalls arrivals calls =
      some (reads, d, rest)) :
    (∀ c < setup.config.numChans.toNat, ∃ left, left.length = d.readElemsLeft ∧
      Read.delivered reads c ++ left = Read.received reads c) ∧
    Read.handlesReleased reads ++ d.held = Read.handlesAcquired reads ∧
    (∀ call, d.readElemsLeft ≠ 0 → ∃ read d', d.readStream rest call = some (read, d', rest) ∧
      read.acquired = none ∧ read.Answers d.readElemsLeft call.numElems call.flags) ∧
    ∀ call record first more, d.readElemsLeft = 0 → call.ready = true → rest = first ++ more →
      Arrives setup.config record first → HoldsElements setup.config record →
      ∃ h read d' rest', d.readStream rest call = some (read, d', rest') ∧
        read.acquired = some (.ofRecord setup h record) ∧
        read.Answers (StreamDatagramHeader.decode record).elems.toInt32.toInt.toNat call.numElems
          (StreamDatagramHeader.decode record).flags := by
  obtain ⟨inv, conserves⟩ :=
    ClientStreamData.readCalls_conserves (ClientStreamData.Inv.fresh actualWindow) returns
  refine ⟨fun c channel => ?_, conserves.handles.symm, fun call more => ?_, ?_⟩
  · have start : (ClientStreamData.fresh setup actualWindow).behind c = [] :=
      ClientStreamData.behind_none rfl
    have elems := conserves.elems c
    rw [start, List.nil_append] at elems
    exact ⟨d.behind c, inv.behind_length channel, elems.symm⟩
  · obtain ⟨read, d', returned, acquired, answers, -⟩ :=
      ClientStreamData.readStream_continues inv more rest call
    exact ⟨read, d', returned, acquired, answers⟩
  · rintro call record first more none ready rfl arrives holds
    obtain ⟨h, read, d', later, returned, acquired, answers, -⟩ :=
      ClientStreamData.readStream_record inv none ready arrives holds more
    exact ⟨h, read, d', _, returned, acquired, answers⟩

section TwoElements

def bytesSetup : StreamSetup := ⟨.memcpy, 1, ⟨true, 1, 1, 100⟩, rfl⟩

def twoElements : Bytes := (StreamDatagramHeader.mk 26 0 2 0 0).encode ++ [7, 9]

theorem twoElements_header : StreamDatagramHeader.decode twoElements = ⟨26, 0, 2, 0, 0⟩ :=
  StreamDatagramHeader.decode_encode _ _

theorem twoElements_length : twoElements.length = 26 := by
  rw [twoElements, List.length_append, StreamDatagramHeader.encode_length]
  rfl

theorem twoElements_holds : HoldsElements bytesSetup.config twoElements := by
  constructor
  · rw [twoElements_header]
    decide
  · rw [twoElements_header, twoElements_length]
    decide
  · intro i channel
    have first : i = 0 := Nat.lt_one_iff.mp channel
    rw [twoElements_header, first]
    decide

theorem twoElements_arrives : Arrives bytesSetup.config twoElements [some twoElements] := by
  rw [Arrives, twoElements_length]
  exact ⟨by decide, rfl, by decide⟩

theorem first_of_two : ∃ read d rest,
    (ClientStreamData.fresh bytesSetup 0).readCalls [some twoElements] [⟨1, 0, 0, true⟩] =
        some ([read], d, rest) ∧
      d.Inv ∧ d.readElemsLeft = 1 := by
  have start : (ClientStreamData.fresh bytesSetup 0).Inv := .fresh 0
  have one : (ReadCall.mk 1 0 0 true).ready = true := rfl
  obtain ⟨h, read, d, rest, returned, -, -, left⟩ :=
    ClientStreamData.readStream_record start rfl one twoElements_arrives twoElements_holds []
  rw [twoElements_header] at left
  refine ⟨read, d, rest ++ [], ?_, ?_, left⟩
  · rw [ClientStreamData.readCalls, ← List.append_nil [some twoElements], returned]
    rfl
  · exact (ClientStreamData.readStream_conserves start returned).1

theorem first_of_two_delivered : ∃ reads d rest,
    (ClientStreamData.fresh bytesSetup 0).readCalls [some twoElements] [⟨1, 0, 0, true⟩] =
        some (reads, d, rest) ∧
      (∀ c < bytesSetup.config.numChans.toNat, ∃ left, left.length = d.readElemsLeft ∧
        Read.delivered reads c ++ left = Read.received reads c) ∧
      Read.handlesReleased reads ++ d.held = Read.handlesAcquired reads := by
  obtain ⟨read, d, rest, returned, -, -⟩ := first_of_two
  obtain ⟨elems, handles, -, -⟩ :=
    fragments_conserved bytesSetup 0 [some twoElements] [⟨1, 0, 0, true⟩] [read] d rest returned
  exact ⟨[read], d, rest, returned, elems, handles⟩

/-- The flag of the first call is still there after the second, which takes the last element. -/
theorem last_fragment_flagged :
    ¬ ∀ (setup : StreamSetup) (actualWindow : Int32) (arrivals : Arrivals) (calls : List ReadCall)
        (reads : List (Read setup)) (d : ClientStreamData setup) (rest : Arrivals),
      (ClientStreamData.fresh setup actualWindow).readCalls arrivals calls =
        some (reads, d, rest) →
      ∀ call read d' rest', d.readStream rest call = some (read, d', rest') →
        (read.flags &&& moreFragments ≠ 0 ↔ d'.readElemsLeft ≠ 0) := by
  intro exactly
  obtain ⟨read, d, rest, returned, inv, left⟩ := first_of_two
  have more : d.readElemsLeft ≠ 0 := left.symm ▸ Nat.one_ne_zero
  obtain ⟨last, d', continued, -, answers, none⟩ :=
    ClientStreamData.readStream_continues inv more rest ⟨1, moreFragments, 0, true⟩
  rw [left] at answers none
  have flags : last.flags = moreFragments := answers.flags
  have some_ := (exactly bytesSetup 0 _ _ _ d rest returned _ last d' rest continued).mp (by
    rw [flags]
    decide)
  exact some_ none

end TwoElements

end Soapy.Remote
