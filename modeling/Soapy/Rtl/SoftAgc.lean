import Soapy.Lib.Runs
import Soapy.Rtl.TunerDevice

/-! # The soft AGC

The thread that receives the samples measures them and asks for lower gains; another thread sets
them. A step of the system is a lock, a wait, a signal, or what one thread does in between.
-/

namespace Soapy.Rtl.SoftAgc

open Lib Tuner

def SOFTAGC_OFF : UInt32 := 0

def SOFTAGC_ON_CHANGE : UInt32 := 1

def SOFTAGC_AUTO_ATTEN : UInt32 := 2

def SOFTAGC_AUTO : UInt32 := 3

def INT_MAX : Int32 := 2147483647

def e4k_gains : List Int32 := [-10, 15, 40, 65, 90, 115, 140, 165, 190, 215, 240, 290, 340, 420]

def fc0012_gains : List Int32 := [-99, -40, 71, 179, 192]

def fc0013_gains : List Int32 :=
  [-99, -73, -65, -63, -60, -58, -54, 58, 61, 63, 65, 67, 68, 70, 71, 179, 181, 182, 184, 186, 188,
    191, 197]

def fc2580_gains : List Int32 := [0]

def r82xx_gains : List Int32 :=
  [0, 9, 14, 27, 37, 77, 87, 125, 144, 157, 166, 197, 207, 229, 254, 280, 297, 328, 338, 364, 372,
    386, 402, 421, 434, 439, 445, 480, 496]

def unknown_gains : List Int32 := [0]

def get_tuner_gains : TunerType → List Int32
  | .e4000 => e4k_gains
  | .fc0012 => fc0012_gains
  | .fc0013 => fc0013_gains
  | .fc2580 => fc2580_gains
  | .r820t | .r828d => r82xx_gains
  | .unknown => unknown_gains

/-- `struct softagc_state`, without the thread and what only starts and ends it. The mode is any
number that an option gives. -/
structure Agc where
  command_newGain : Int32
  command_changeGain : Bool
  agcState : SoftState
  softAgcMode : UInt32
  scanTimeSps : Int32
  deadTimeSps : Int32
  remainingDeadSps : Int32
  remainingScanSps : Int32
  numInHisto : Int32
  histo : Nat → Int32
  gainIdx : Int32

/-- What the two times are in samples at the rate that is set. A `float` never becomes the largest
`int`. -/
structure Times where
  scan : Int32
  dead : Int32
  dead_ne : dead ≠ INT_MAX

/-- The memory from the first sample on, and the length of the block. -/
structure Block where
  buf : Int → UInt8
  len : Int32
  len_nonneg : 0 ≤ len

/-- What is left to do after the signal. -/
inductive Rest where
  | reset
  | overload
deriving DecidableEq

/-- A call of `softagc` up to the signal or its return: the bytes that it counts, whether it finds
    too many large ones, and whether it ends with nothing counted. -/
structure Result where
  agc : Agc
  next : Bool ⊕ Rest
  counted : Bytes
  overload : Bool
  cleared : Bool

def returned (agc : Agc) (keepBlock : Bool) : Result := ⟨agc, .inl keepBlock, [], false, false⟩

/-- No samples are kept before the gain is found. -/
def Agc.keeps (agc : Agc) : Bool := agc.agcState ≠ .reset_cont

/-- The eighth part of the amplitude. -/
def bucket (b : UInt8) : Nat :=
  if 128 ≤ b then (b.toNat - 128) >>> 3 else (127 - b.toNat) >>> 3

def histogram (histo : Nat → Int32) (bytes : Bytes) : Nat → Int32 :=
  bytes.foldl (fun histo b => Function.update histo (bucket b) (histo (bucket b) + 1)) histo

/-- `distrib[15 - j]` -/
def distribDown (histo : Nat → Int32) : Nat → Int32
  | 0 => histo 15
  | j + 1 => distribDown histo j + histo (14 - j)

def distrib (histo : Nat → Int32) (k : Nat) : Int32 := distribDown histo (15 - k)

def oversteered (agc : Agc) : Bool :=
  64 * distrib agc.histo 15 ≥ agc.numInHisto || 16 * distrib agc.histo 12 ≥ agc.numInHisto ||
    4 * distrib agc.histo 8 ≥ agc.numInHisto

/-- The state `SOFTSTATE_RESET`. -/
def resetMeasurement (gains : List Int32) (times : Times) (agc : Agc) : Result :=
  let numGains := gains.length
  if numGains = 0 then returned agc true
  else if numGains = 1 then
    returned { agc with softAgcMode := SOFTAGC_OFF, agcState := .off } true
  else
    let scanTimeSps := if agc.scanTimeSps = 0 then times.scan else agc.scanTimeSps
    let deadTimeSps := if agc.deadTimeSps = 0 then times.dead else agc.deadTimeSps
    let agc := { agc with
      scanTimeSps, deadTimeSps
      remainingDeadSps := INT_MAX
      remainingScanSps := scanTimeSps
      numInHisto := 0
      histo := fun _ => 0
      gainIdx := Int32.ofNat (numGains - 1)
      command_newGain := gains.getD (numGains - 1) 0
      command_changeGain := true }
    ⟨agc, .inr .reset, [], false, true⟩

/-- The bytes behind the dead time; with less than no time left they begin in front of the block. -/
def liveBytes (agc : Agc) (block : Block) : Bytes :=
  let len := block.len - 2 * agc.remainingDeadSps
  (List.range len.toInt.toNat).map fun (i : Nat) => block.buf (2 * agc.remainingDeadSps.toInt + i)

def countBlock (agc : Agc) (block : Block) : Agc :=
  let len := block.len - 2 * agc.remainingDeadSps
  { agc with
    remainingDeadSps := 0
    histo := histogram agc.histo (liveBytes agc block)
    numInHisto := agc.numInHisto + len
    remainingScanSps := agc.remainingScanSps - len / 2 }

def scanned (agc : Agc) : Agc :=
  if agc.remainingScanSps < 0 then
    let agc := { agc with remainingScanSps := 0 }
    if agc.softAgcMode = SOFTAGC_OFF ∨ agc.softAgcMode = SOFTAGC_ON_CHANGE then
      match agc.agcState with
      | .off | .reset_cont => { agc with agcState := .off }
      | .on | .reset | .init => agc
    else if agc.softAgcMode = SOFTAGC_AUTO_ATTEN ∨ agc.softAgcMode = SOFTAGC_AUTO then
      { agc with agcState := .on }
    else agc
  else agc

/-- What is done once the block is counted. -/
def judge (gains : List Int32) (counted : Bytes) (agc : Agc) : Result :=
  if oversteered agc then
    if 0 < agc.gainIdx then
      let agc := { agc with
        remainingDeadSps := INT_MAX
        remainingScanSps := agc.scanTimeSps
        numInHisto := 0
        histo := fun _ => 0
        gainIdx := agc.gainIdx - 1
        command_newGain := gains.getD (agc.gainIdx - 1).toInt.toNat 0
        command_changeGain := true }
      ⟨agc, .inr .overload, counted, true, true⟩
    else ⟨agc, .inl agc.keeps, counted, true, false⟩
  else ⟨scanned agc, .inl (scanned agc).keeps, counted, false, false⟩

def measure (gains : List Int32) (agc : Agc) (block : Block) : Result :=
  if agc.remainingDeadSps = INT_MAX then returned agc false
  else if agc.remainingDeadSps ≠ 0 ∧ block.len / 2 ≤ agc.remainingDeadSps then
    returned { agc with remainingDeadSps := agc.remainingDeadSps - block.len / 2 } agc.keeps
  else if agc.gainIdx = 0 ∧ agc.agcState = .reset_cont then
    returned { agc with remainingDeadSps := 0, agcState := .off } true
  else judge gains (liveBytes agc block) (countBlock agc block)

/-- `_libusb_callback` calls `softagc` unless it is off. -/
def softagc (gains : List Int32) (times : Times) (agc : Agc) (block : Block) : Result :=
  match agc.agcState with
  | .off => returned agc true
  | .init => returned { agc with agcState := .reset } false
  | .reset => resetMeasurement gains times agc
  | .on | .reset_cont => measure gains agc block

def reactivate_softagc (agc : Agc) (newState : SoftState) : Agc :=
  if SOFTAGC_OFF < agc.softAgcMode ∧ ¬ (agc.agcState ≠ .off ∧ SOFTAGC_AUTO ≤ agc.softAgcMode) then
    { agc with agcState := newState }
  else agc

inductive Thread where
  | stream
  | worker
deriving DecidableEq

/-- Where `_libusb_callback` is, in front of a lock, a signal or an unlock, or behind it. -/
inductive Stream where
  | idle
  | lock (rest : Rest)
  | signal (rest : Rest)
  | unlock (rest : Rest)
  | finish (rest : Rest)
deriving DecidableEq

/-- Where `softagc_control_worker` is. It gives the lock back as it starts to wait, and takes it
again when it was woken. -/
inductive Worker where
  | lock
  | wait
  | waiting
  | woken
  | unlock
  | command
deriving DecidableEq

/-- The two threads and what they share. The last fields: the bytes counted since the last reset,
    and how often too many were large since the gain was set to its maximum. -/
structure State where
  agc : Agc
  mutex : Option Thread
  stream : Stream
  worker : Worker
  counted : Bytes
  overloads : Option Nat

/-- The option `softagc` has been read, and the worker was created. -/
def start (mode : UInt32) : State where
  agc := {
    command_newGain := 0
    command_changeGain := false
    agcState := if mode = SOFTAGC_OFF then .off else .init
    softAgcMode := mode
    scanTimeSps := 0
    deadTimeSps := 0
    remainingDeadSps := 0
    remainingScanSps := 0
    numInHisto := 0
    histo := fun _ => 0
    gainIdx := 0 }
  mutex := none
  stream := .idle
  worker := .lock
  counted := []
  overloads := none

/-- A step of a thread, or a call of the library by another one. -/
inductive Event where
  | block (times : Times) (block : Block)
  | stream
  | worker
  | reactivate
  | set_sample_rate

def State.receive (tuner : TunerType) (s : State) (times : Times) (block : Block) : State :=
  let result := softagc (get_tuner_gains tuner) times s.agc block
  { s with
    agc := result.agc
    stream := match result.next with
      | .inl _ => .idle
      | .inr rest => .lock rest
    counted := if result.cleared then [] else s.counted ++ result.counted
    overloads := match result.next with
      | .inr .reset => some 0
      | _ => if result.overload then s.overloads.map (· + 1) else s.overloads }

/-- The end of the call behind the unlock. -/
def Agc.finish (agc : Agc) : Rest → Agc
  | .reset => { agc with agcState := .reset_cont }
  | .overload => agc

def streamStep (s : State) : Option State :=
  match s.stream with
  | .idle => none
  | .lock rest =>
    if s.mutex = none then some { s with mutex := some .stream, stream := .signal rest } else none
  | .signal rest =>
    some { s with
      stream := .unlock rest
      worker := if s.worker = .waiting then .woken else s.worker }
  | .unlock rest => some { s with mutex := none, stream := .finish rest }
  | .finish rest => some { s with agc := s.agc.finish rest, stream := .idle }

/-- The loop of the worker behind its wait. -/
def Agc.command (agc : Agc) : Agc :=
  if agc.command_changeGain then
    { agc with command_changeGain := false, remainingDeadSps := agc.deadTimeSps }
  else agc

def workerStep (s : State) : Option State :=
  match s.worker with
  | .lock =>
    if s.mutex = none then some { s with mutex := some .worker, worker := .wait } else none
  | .wait => some { s with mutex := none, worker := .waiting }
  | .waiting => none
  | .woken =>
    if s.mutex = none then some { s with mutex := some .worker, worker := .unlock } else none
  | .unlock => some { s with mutex := none, worker := .command }
  | .command => some { s with agc := s.agc.command, worker := .lock }

def Agc.rateChanged (agc : Agc) : Agc :=
  if SOFTAGC_OFF < agc.softAgcMode then
    { reactivate_softagc agc .reset with deadTimeSps := 0, scanTimeSps := 0 }
  else agc

def step (tuner : TunerType) (s : State) : Event → Option State
  | .block times block =>
    match s.stream with
    | .idle => some (s.receive tuner times block)
    | _ => none
  | .stream => streamStep s
  | .worker => workerStep s
  | .reactivate => some { s with agc := reactivate_softagc s.agc .reset }
  | .set_sample_rate => some { s with agc := s.agc.rateChanged }

def Steps (tuner : TunerType) (s : State) (event : Event) (s' : State) : Prop :=
  step tuner s event = some s'

theorem scanned_eq (agc : Agc) : scanned agc =
    { agc with agcState := (scanned agc).agcState, remainingScanSps := (scanned agc).remainingScanSps } := by
  cases agc with
  | mk _ _ agcState softAgcMode =>
    rw [scanned]
    split
    · simp only
      split
      · cases agcState <;> rfl
      · split <;> rfl
    · rfl

end Soapy.Rtl.SoftAgc
