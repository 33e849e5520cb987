import Soapy.Lib.Runs

/-! # Reading from a NetSDR

The device sends its samples in UDP packets. A read takes what the last packet left over, whole
packets straight to the buffer of the caller, and of one packet more what it still needs. What is left
over stands at the end of a packet of the nominal size.
-/

namespace Soapy.Receive.NetSDR

open Lib

/-- The number of samples that `datasave` has room for. -/
def saveSize : Nat := 256

/-- The packets that carry 24-bit samples. -/
def isLong : List UInt8 → Bool
  | data0 :: data1 :: _ => data0 = 0xA4 ∧ data1 = 0x85 ∨ data0 = 0x84 ∧ data1 = 0x81
  | _ => false

section Packets

variable {F : Type} (f16 f24 : Int → F)

def value16 (b0 b1 : UInt8) : Int := ((b0.toNat + b1.toNat * 256 : Nat) : Int).bmod 65536

def value24 (b0 b1 b2 : UInt8) : Int :=
  ((b0.toNat + b1.toNat * 256 + b2.toNat * 65536 : Nat) : Int).bmod 16777216

def decode16 : List UInt8 → List (F × F)
  | b0 :: b1 :: b2 :: b3 :: rest => (f16 (value16 b0 b1), f16 (value16 b2 b3)) :: decode16 rest
  | _ => []

def decode24 : List UInt8 → List (F × F)
  | b0 :: b1 :: b2 :: b3 :: b4 :: b5 :: rest =>
    (f24 (value24 b0 b1 b2), f24 (value24 b3 b4 b5)) :: decode24 rest
  | _ => []

/-- The samples that `processUDP` writes for a packet, of which it returns the number. The scaling to
    `float` is `f16` and `f24`. -/
def processUDP (packet : List UInt8) : List (F × F) :=
  -- `data` has room for so many bytes, and the rest of a packet is dropped
  match packet.take 1444 with
  | data0 :: data1 :: _ :: _ :: rest =>
    if data0 = 0x04 ∧ (data1 = 0x84 ∨ data1 = 0x82) then decode16 f16 rest
    else if data0 = 0xA4 ∧ data1 = 0x85 ∨ data0 = 0x84 ∧ data1 = 0x81 then decode24 f24 rest
    else []
  | _ => []

end Packets

/-- A read, with what `select` returns, and the arrival of a packet. -/
inductive Action where
  | arrive (packet : List UInt8)
  | readStream (numElems : Nat) (select : Int)

/-- Behind the fields: what arrived and what was delivered, for each call how many samples it was to
    write to the buffer of the caller and how many it wrote, and how many it wrote to `datasave`. -/
structure State (F : Type) where
  queue : List (List UInt8)
  datasave : Nat → F × F
  datacount : Nat
  arrived : List (F × F)
  delivered : List (F × F)
  written : List (Nat × Nat)
  saved : List Nat

variable {F : Type} (f16 f24 : Int → F) (datasize : Nat)

/-- `while (nn >= datasize)`, which does not end when there is no packet any more. -/
def wholePackets : Nat → List (List UInt8) → Option (Nat × List (F × F) × List (List UInt8))
  | nn, [] => if datasize ≤ nn then none else some (nn, [], [])
  | nn, packet :: queue =>
    if datasize ≤ nn then
      (wholePackets (nn - (processUDP f16 f24 packet).length) queue).map
        fun (nn, out, queue) => (nn, processUDP f16 f24 packet ++ out, queue)
    else some (nn, [], packet :: queue)

def partialPacket (s : State F) (numElems nn : Nat) (out : List (F × F)) : State F :=
  match s.queue with
  | [] => { s with
      delivered := s.delivered ++ out, written := s.written ++ [(numElems, out.length)] }
  | packet :: queue =>
    let data := processUDP f16 f24 packet
    if 0 < nn ∧ data ≠ [] then
      let datasave := fun i => (data[i]?).getD (s.datasave i)
      let out := out ++ (List.range nn).map datasave
      { s with
        queue := queue, datasave := datasave
        datacount := (data.length + 2 ^ 64 - nn) % 2 ^ 64
        delivered := s.delivered ++ out, written := s.written ++ [(numElems, out.length)]
        saved := s.saved ++ [data.length] }
    else { s with
      queue := if 0 < nn then queue else s.queue
      delivered := s.delivered ++ out, written := s.written ++ [(numElems, out.length)] }

/-- The samples that count are the ones up to the returned number. A call that does not return is
    `none`. -/
def readStream (s : State F) (numElems : Nat) (select : Int) : Option (State F) :=
  let dataOffs := (datasize + 2 ^ 64 - s.datacount) % 2 ^ 64
  let dataElems := min numElems s.datacount
  let out := (List.range dataElems).map (fun i => s.datasave (dataOffs + i))
  let nn := numElems - dataElems
  let s := { s with datacount := s.datacount - dataElems }
  if nn = 0 ∨ select = 0 then
    some { s with delivered := s.delivered ++ out, written := s.written ++ [(numElems, dataElems)] }
  else if select < 0 then some { s with written := s.written ++ [(numElems, dataElems)] }
  else (wholePackets f16 f24 datasize nn s.queue).map fun (nn, whole, queue) =>
    partialPacket f16 f24 { s with queue := queue } numElems nn (out ++ whole)

def step (s : State F) : Action → Option (State F)
  | .arrive packet => some { s with
      queue := s.queue ++ [packet], arrived := s.arrived ++ processUDP f16 f24 packet }
  | .readStream numElems select => readStream f16 f24 datasize s numElems select

def State.start (datasave : Nat → F × F) : State F := ⟨[], datasave, 0, [], [], [], []⟩

/-- The samples arrive in order, and no write goes too far. -/
structure Sound (s : State F) : Prop where
  ordered : s.delivered <+: s.arrived
  written : ∀ w ∈ s.written, w.2 ≤ w.1
  saved : ∀ w ∈ s.saved, w ≤ saveSize

/-- The packets are enough for the whole ones that are needed, and the one behind them has as many
    samples as are needed of it, or the nominal number, or none. -/
def Fits (n : Nat) : List (List UInt8) → Prop
  | [] => n < datasize
  | packet :: queue =>
    if datasize ≤ n then Fits (n - (processUDP f16 f24 packet).length) queue
    else n = 0 ∨ processUDP f16 f24 packet = [] ∨ (processUDP f16 f24 packet).length = n ∨
      (processUDP f16 f24 packet).length = datasize

/-- A packet fits into `data`, and has at most the nominal number of samples, all of them whole. A
    `select` fails when nothing is left over only. -/
def Proper (s : State F) : Action → Prop
  | .arrive packet => packet.length ≤ 1444 ∧ (isLong packet → 6 ∣ packet.length - 4) ∧
      (processUDP f16 f24 packet).length ≤ datasize
  | .readStream numElems select => s.datacount < numElems →
      (select < 0 → s.datacount = 0) ∧
        (0 < select → Fits f16 f24 datasize (numElems - s.datacount) s.queue)

def left (datasave : Nat → F × F) (datacount : Nat) : List (F × F) :=
  (List.range datacount).map (fun i => datasave (datasize - datacount + i))

structure Inv (s : State F) : Prop where
  count : s.datacount ≤ datasize
  packets : ∀ packet ∈ s.queue, (processUDP f16 f24 packet).length ≤ datasize
  ordered : s.arrived = s.delivered ++
    (left datasize s.datasave s.datacount ++ s.queue.flatMap (processUDP f16 f24))
  written : ∀ w ∈ s.written, w.2 ≤ w.1
  saved : ∀ w ∈ s.saved, w ≤ saveSize

variable {f16 f24 datasize} {s : State F}

theorem wholePackets_eq {queue : List (List UInt8)} {nn : Nat} (fits : Fits f16 f24 datasize nn queue)
    (small : ∀ packet ∈ queue, (processUDP f16 f24 packet).length ≤ datasize) :
    ∃ nn' out queue', wholePackets f16 f24 datasize nn queue = some (nn', out, queue') ∧
      nn' < datasize ∧ out.length + nn' = nn ∧
      queue.flatMap (processUDP f16 f24) = out ++ queue'.flatMap (processUDP f16 f24) ∧
      Fits f16 f24 datasize nn' queue' ∧ ∀ packet ∈ queue', packet ∈ queue := by
  induction queue generalizing nn with
  | nil =>
    exact ⟨nn, [], [], if_neg (Nat.not_le.mpr fits), fits, Nat.zero_add _, rfl, fits, nofun⟩
  | cons packet queue ih =>
    by_cases enough : datasize ≤ nn
    · rw [Fits, if_pos enough] at fits
      have own := small packet List.mem_cons_self
      obtain ⟨nn', out, queue', run, less, length, flat, last, members⟩ :=
        ih fits fun packet member => small packet (.tail _ member)
      refine ⟨nn', processUDP f16 f24 packet ++ out, queue', ?_, less, ?_, ?_, last,
        fun packet member => .tail _ (members packet member)⟩
      · rw [wholePackets, if_pos enough, run]
        rfl
      · rw [List.length_append]
        omega
      · rw [List.flatMap_cons, flat, List.append_assoc]
    · exact ⟨nn, [], packet :: queue, if_neg enough, Nat.not_le.mp enough, Nat.zero_add _, rfl, fits,
        fun _ member => member⟩

/-- What is copied from `datasave` is the begin of the last packet. -/
theorem first_eq {samples : List (F × F)} {nn : Nat} (enough : nn ≤ samples.length)
    (datasave : Nat → F × F) :
    (List.range nn).map (fun i => (samples[i]?).getD (datasave i)) = samples.take nn := by
  apply List.ext_getElem
  · simp only [List.length_map, List.length_range, List.length_take]
    omega
  · intro i h h'
    have small : i < samples.length := by
      rw [List.length_take] at h'
      omega
    simp [small]

/-- What is left over of the last packet is found at the end of a nominal one. -/
theorem left_eq {samples : List (F × F)} {nn : Nat}
    (fits : samples.length = nn ∨ samples.length = datasize) (datasave : Nat → F × F) :
    (List.range (samples.length - nn)).map (fun i =>
      (samples[datasize - (samples.length - nn) + i]?).getD
        (datasave (datasize - (samples.length - nn) + i))) = samples.drop nn := by
  apply List.ext_getElem
  · simp only [List.length_map, List.length_range, List.length_drop]
  · intro i h h'
    have small : i < samples.length - nn := by simpa using h
    have at' : datasize - (samples.length - nn) + i = nn + i := by omega
    have inside : nn + i < samples.length := by omega
    simp [at', inside]

theorem partialPacket_inv {out : List (F × F)}
    (inv : Inv f16 f24 datasize { s with delivered := s.delivered ++ out })
    (nominal : datasize ≤ saveSize) (empty : s.datacount = 0) {numElems nn : Nat}
    (less : nn < datasize) (last : Fits f16 f24 datasize nn s.queue)
    (length : out.length + nn = numElems) :
    Inv f16 f24 datasize (partialPacket f16 f24 s numElems nn out) := by
  obtain ⟨queue, datasave, datacount, arrived, delivered, written, saved⟩ := s
  obtain rfl : datacount = 0 := empty
  have writes : ∀ {out : List (F × F)}, out.length ≤ numElems →
      ∀ w ∈ written ++ [(numElems, out.length)], w.2 ≤ w.1 := by
    intro out small w member
    rcases List.mem_append.mp member with old | new
    · exact inv.written w old
    · rw [List.mem_singleton.mp new]
      exact small
  cases queue with
  | nil => exact ⟨inv.count, inv.packets, inv.ordered, writes (by omega), inv.saved⟩
  | cons packet queue =>
    have own : (processUDP f16 f24 packet).length ≤ datasize :=
      inv.packets packet List.mem_cons_self
    have behind := fun other member => inv.packets other (List.mem_cons_of_mem packet member)
    have ordered : arrived = delivered ++ out ++ (processUDP f16 f24 packet ++
        queue.flatMap (processUDP f16 f24)) := inv.ordered
    rw [Fits, if_neg (Nat.not_le.mpr less)] at last
    simp only [partialPacket]
    by_cases data : 0 < nn ∧ processUDP f16 f24 packet ≠ []
    · rw [if_pos data]
      set samples := processUDP f16 f24 packet
      have fits : samples.length = nn ∨ samples.length = datasize :=
        (last.resolve_left (Nat.ne_of_gt data.1)).resolve_left data.2
      have enough : nn ≤ samples.length := by omega
      have count : (samples.length + 2 ^ 64 - nn) % 2 ^ 64 = samples.length - nn := by
        have : saveSize = 256 := rfl
        omega
      rw [first_eq enough, count]
      refine ⟨Nat.le_trans (Nat.sub_le _ nn) own, behind, ?_, writes ?_, ?_⟩
      · simp only [left, left_eq fits]
        rw [ordered, ← List.append_assoc delivered, List.append_assoc (delivered ++ out),
          ← List.append_assoc (samples.take nn), List.take_append_drop]
      · rw [List.length_append, List.length_take]
        omega
      · intro w member
        rcases List.mem_append.mp member with old | new
        · exact inv.saved w old
        · rw [List.mem_singleton.mp new]
          exact Nat.le_trans own nominal
    · rw [if_neg data]
      refine ⟨inv.count, ?_, ?_, writes (by omega), inv.saved⟩
      · by_cases more : 0 < nn
        · simpa only [if_pos more] using behind
        · simpa only [if_neg more] using inv.packets
      · by_cases more : 0 < nn
        · have nothing : processUDP f16 f24 packet = [] := by
            by_contra some
            exact data ⟨more, some⟩
          rw [nothing] at ordered
          simp only [if_pos more]
          exact ordered
        · simp only [if_neg more]
          exact inv.ordered

theorem left_split {datacount k : Nat} (small : k ≤ datacount) (count : datacount ≤ datasize)
    (datasave : Nat → F × F) :
    left datasize datasave datacount =
      (List.range k).map (fun i => datasave (datasize - datacount + i)) ++
        left datasize datasave (datacount - k) := by
  have both : datacount = k + (datacount - k) := by omega
  have at' : datasize - (datacount - k) = datasize - datacount + k := by omega
  conv_lhs => rw [left, both, List.range_add, List.map_append, List.map_map, ← both]
  simp only [left, Function.comp_def, at', Nat.add_assoc]

theorem readStream_inv (inv : Inv f16 f24 datasize s) (nominal : datasize ≤ saveSize)
    {numElems : Nat} {select : Int}
    (proper : Proper f16 f24 datasize s (.readStream numElems select)) :
    ∃ s', readStream f16 f24 datasize s numElems select = some s' ∧ Inv f16 f24 datasize s' := by
  have count := inv.count
  have offset : (datasize + 2 ^ 64 - s.datacount) % 2 ^ 64 = datasize - s.datacount := by
    have : saveSize = 256 := rfl
    omega
  have ordered := inv.ordered
  rw [left_split (Nat.min_le_right numElems s.datacount) count] at ordered
  simp only [readStream, offset]
  set dataElems := min numElems s.datacount
  set out := (List.range dataElems).map (fun i => s.datasave (datasize - s.datacount + i))
  have written : ∀ w ∈ s.written ++ [(numElems, dataElems)], w.2 ≤ w.1 := by
    intro w member
    rcases List.mem_append.mp member with old | new
    · exact inv.written w old
    · rw [List.mem_singleton.mp new]
      exact Nat.min_le_left ..
  have less : s.datacount - dataElems ≤ datasize := by omega
  by_cases done : numElems - dataElems = 0 ∨ select = 0
  · rw [if_pos done]
    refine ⟨_, rfl, less, inv.packets, ?_, written, inv.saved⟩
    simpa only [List.append_assoc] using ordered
  · rw [if_neg done]
    have short : s.datacount < numElems := by omega
    have all : dataElems = s.datacount := Nat.min_eq_right (Nat.le_of_lt short)
    have empty : s.datacount - dataElems = 0 := by omega
    by_cases failed : select < 0
    · rw [if_pos failed]
      have nothing : out = [] := by
        simp [out, all, (proper short).1 failed]
      rw [nothing, List.nil_append] at ordered
      exact ⟨_, rfl, less, inv.packets, ordered, written, inv.saved⟩
    · rw [if_neg failed, all]
      obtain ⟨nn, whole, queue, run, less, length, flat, last, members⟩ :=
        wholePackets_eq ((proper short).2 (by omega)) inv.packets
      rw [run]
      have length' : (out ++ whole).length + nn = numElems := by
        simp only [out, List.length_append, List.length_map, List.length_range]
        omega
      refine ⟨_, rfl, partialPacket_inv (s := { s with queue := queue, datacount := _ })
        ⟨?_, ?_, ?_, inv.written, inv.saved⟩ nominal (Nat.sub_self _) less last length'⟩
      · simp
      · exact fun packet member => inv.packets packet (members packet member)
      · rw [flat, empty] at ordered
        simp only [Nat.sub_self, List.append_assoc]
        rw [ordered]
        simp [left]

variable (f16 f24 datasize)

def Step (s : State F) (a : Action) (s' : State F) : Prop := step f16 f24 datasize s a = some s'

theorem step_inv (nominal : datasize ≤ saveSize) (inv : Inv f16 f24 datasize s) {a : Action}
    (proper : Proper f16 f24 datasize s a) :
    ∃ s', step f16 f24 datasize s a = some s' ∧ Inv f16 f24 datasize s' := by
  cases a with
  | arrive packet =>
    refine ⟨_, rfl, inv.count, ?_, ?_, inv.written, inv.saved⟩
    · intro other member
      rcases List.mem_append.mp member with old | new
      · exact inv.packets other old
      · rw [List.mem_singleton.mp new]
        exact proper.2.2
    · simp [inv.ordered]
  | readStream numElems select => exact readStream_inv inv nominal proper

/-- Over a run of proper calls the samples arrive in order and no write goes too far, and a proper
    call returns. -/
theorem reads_in_order (nominal : datasize ≤ saveSize) (datasave : Nat → F × F)
    (run : Runs (Step f16 f24 datasize) (Proper f16 f24 datasize) (.start datasave) s) :
    Sound s ∧ ∀ a, Proper f16 f24 datasize s a → ∃ s', step f16 f24 datasize s a = some s' := by
  have start : Inv f16 f24 datasize (.start datasave : State F) :=
    ⟨Nat.zero_le _, nofun, rfl, nofun, nofun⟩
  have inv : Inv f16 f24 datasize s := by
    refine run.keeps (fun _ _ _ inv proper taken => ?_) start
    obtain ⟨s', returns, kept⟩ := step_inv f16 f24 datasize nominal inv proper
    exact Option.some.inj (returns.symm.trans taken) ▸ kept
  refine ⟨⟨⟨_, inv.ordered.symm⟩, inv.written, inv.saved⟩, fun a proper => ?_⟩
  obtain ⟨s', returns, -⟩ := step_inv f16 f24 datasize nominal inv proper
  exact ⟨s', returns⟩

theorem reads_in_order_whole :
    ∃ s : State Int, s.delivered = [(1, 2), (3, 4)] ∧ Sound s := by
  let packet : List UInt8 := [0x04, 0x84, 0, 0, 1, 0, 2, 0, 3, 0, 4, 0]
  have fits : Fits (F := Int) id id 256 2 [packet] := .inr (.inr (.inl rfl))
  have run : Runs (Step id id 256) (Proper id id 256) (.start fun _ => (9, 9)) _ :=
    .head (a := .arrive packet) rfl ⟨by decide, by decide, by decide⟩ <|
      .head (a := .readStream 2 1) rfl (fun _ => ⟨nofun, fun _ => fits⟩) .refl
  exact ⟨_, by decide +kernel, (reads_in_order id id 256 (by decide) _ run).1⟩

/-- The second sample of a short packet is looked for at the end of `datasave`. -/
theorem reads_out_of_order : ∃ s : State Int,
    Runs (Step id id 240) (fun _ _ => True) (.start fun _ => (9, 9)) s ∧
      s.arrived = [(1, 2), (3, 4)] ∧ s.delivered = [(1, 2), (9, 9)] ∧ ¬ Sound s := by
  let packet : List UInt8 := [0x04, 0x84, 0, 0, 1, 0, 2, 0, 3, 0, 4, 0]
  exact ⟨_, .head (a := .arrive packet) rfl trivial <|
    .head (a := .readStream 1 1) rfl trivial <|
    .head (a := .readStream 1 1) (Option.some_get (by decide +kernel)).symm trivial .refl,
    by decide +kernel, by decide +kernel, fun sound => absurd sound.ordered (by decide +kernel)⟩

end Soapy.Receive.NetSDR
