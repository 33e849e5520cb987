import Soapy.Lib.Buffer
import Soapy.Lib.Bytes

/-! # The command thread of `rtl_tcp`

The thread puts together records of five bytes out of what `recv` gives it, and executes each one
that is complete. `recv` gives some of the bytes that the client has sent, and none when the client
has closed the connection. The printed messages are left out.
-/

namespace Soapy.Rtl.Tcp.Commands

open Lib

def SET_FREQUENCY : UInt8 := 0x01

def SET_FREQ_HI32 : UInt8 := 0x56

def SET_SAMPLE_RATE : UInt8 := 0x02

def SET_GAIN_MODE : UInt8 := 0x03

def SET_GAIN : UInt8 := 0x04

def SET_FREQUENCY_CORRECTION : UInt8 := 0x05

def SET_IF_STAGE : UInt8 := 0x06

def SET_TEST_MODE : UInt8 := 0x07

def SET_AGC_MODE : UInt8 := 0x08

def SET_DIRECT_SAMPLING : UInt8 := 0x09

def SET_OFFSET_TUNING : UInt8 := 0x0A

def SET_RTL_CRYSTAL : UInt8 := 0x0B

def SET_TUNER_CRYSTAL : UInt8 := 0x0C

def SET_TUNER_GAIN_BY_INDEX : UInt8 := 0x0D

def SET_BIAS_TEE : UInt8 := 0x0E

def SET_TUNER_BANDWIDTH : UInt8 := 0x40

def UDP_TERMINATE : UInt8 := 0x42

def SET_I2C_TUNER_REGISTER : UInt8 := 0x43

def SET_I2C_TUNER_OVERRIDE : UInt8 := 0x44

def SET_TUNER_BW_IF_CENTER : UInt8 := 0x45

def SET_TUNER_IF_MODE : UInt8 := 0x46

def SET_SIDEBAND : UInt8 := 0x47

def REPORT_I2C_REGS : UInt8 := 0x48

def GPIO_SET_OUTPUT_MODE : UInt8 := 0x49

def GPIO_SET_INPUT_MODE : UInt8 := 0x50

def GPIO_GET_IO_STATUS : UInt8 := 0x51

def GPIO_WRITE_PIN : UInt8 := 0x52

def GPIO_READ_PIN : UInt8 := 0x53

def GPIO_GET_BYTE : UInt8 := 0x54

def IS_TUNER_PLL_LOCKED : UInt8 := 0x55

/-- `struct command`, its parameter behind `ntohl`. -/
structure Command where
  cmd : UInt8
  param : UInt32
deriving DecidableEq

def Command.ofBytes (bytes : Bytes) : Command :=
  ⟨bytes.headD 0, UInt32.ofNat (ofBE bytes.tail)⟩

inductive Call where
  | set_center_freq (freq : UInt32)
  | set_center_freq64 (freq : UInt64)
  | set_sample_rate (rate : UInt32)
  | set_tuner_gain_mode (manual : Int32)
  | set_tuner_gain (gain : Int32)
  | set_freq_correction (ppm : Int32)
  | set_tuner_if_gain (stage : Int32) (gain : Int16)
  | set_testmode (on : Int32)
  | set_agc_mode (on : Int32)
  | set_direct_sampling (on : Int32)
  | set_offset_tuning (on : Int32)
  | set_xtal_freq (rtl_freq tuner_freq : UInt32)
  | set_bias_tee (on : Int32)
  | set_bandwidth (bandwidth : UInt32)
  | set_tuner_i2c_register (i2c_register mask data : UInt32)
  | set_tuner_i2c_override (i2c_register mask data : UInt32)
  | set_tuner_band_center (if_band_center_freq : Int32)
  | set_tuner_if_mode (if_mode : Int32)
  | set_tuner_sideband (sideband : Int32)
  | set_gpio_output (gpio : UInt8)
  | set_gpio_input (gpio : UInt8)
  | set_gpio_status
  | set_gpio_bit (gpio : UInt8) (val : Int32)
  | get_gpio_bit (gpio : UInt8)
  | get_gpio_byte
  | is_tuner_PLL_locked
deriving DecidableEq

def Call.tunes : Call → Option UInt64
  | .set_center_freq freq => some freq.toUInt64
  | .set_center_freq64 freq => some freq
  | _ => none

/-- `gains` is what `rtlsdr_get_tuner_gains` gives. -/
def set_gain_by_index (gains : List Int32) (index : UInt32) : List Call :=
  match gains[index.toNat]? with
  | some gain => [.set_tuner_gain gain]
  | none => []

def flag (tmp : UInt32) : UInt32 := if tmp ≠ 0 then 1 else tmp

def deviceCalls (gains : List Int32) (cmd : UInt8) (tmp : UInt32) : List Call :=
  let itmp := tmp.toInt32
  if cmd = SET_SAMPLE_RATE then [.set_sample_rate tmp]
  else if cmd = SET_GAIN_MODE then [.set_tuner_gain_mode itmp]
  else if cmd = SET_GAIN then [.set_tuner_gain itmp]
  else if cmd = SET_FREQUENCY_CORRECTION then [.set_freq_correction itmp]
  else if cmd = SET_IF_STAGE then
    [.set_tuner_if_gain (tmp >>> 16).toInt32 (tmp &&& 0xffff).toUInt16.toInt16]
  else if cmd = SET_TEST_MODE then [.set_testmode itmp]
  else if cmd = SET_AGC_MODE then [.set_agc_mode itmp]
  else if cmd = SET_DIRECT_SAMPLING then [.set_direct_sampling itmp]
  else if cmd = SET_OFFSET_TUNING then [.set_offset_tuning itmp]
  else if cmd = SET_RTL_CRYSTAL then [.set_xtal_freq tmp 0]
  else if cmd = SET_TUNER_CRYSTAL then [.set_xtal_freq 0 tmp]
  else if cmd = SET_TUNER_GAIN_BY_INDEX then set_gain_by_index gains tmp
  else if cmd = SET_BIAS_TEE then [.set_bias_tee itmp]
  else if cmd = SET_I2C_TUNER_REGISTER then
    [.set_tuner_i2c_register ((tmp >>> 20) &&& 0xfff) ((tmp >>> 12) &&& 0xff) (tmp &&& 0xfff)]
  else if cmd = SET_I2C_TUNER_OVERRIDE then
    [.set_tuner_i2c_override ((tmp >>> 20) &&& 0xfff) ((tmp >>> 12) &&& 0xff) (tmp &&& 0xfff)]
  else if cmd = SET_TUNER_BW_IF_CENTER then [.set_tuner_band_center itmp]
  else if cmd = SET_TUNER_IF_MODE then [.set_tuner_if_mode itmp]
  else if cmd = SET_SIDEBAND then [.set_tuner_sideband (flag tmp).toInt32]
  else if cmd = GPIO_SET_OUTPUT_MODE then
    if 0 ≤ itmp ∧ itmp < 8 then [.set_gpio_output tmp.toUInt8] else []
  else if cmd = GPIO_SET_INPUT_MODE then
    if 0 ≤ itmp ∧ itmp < 8 then [.set_gpio_input tmp.toUInt8] else []
  else if cmd = GPIO_GET_IO_STATUS then [.set_gpio_status]
  else if cmd = GPIO_WRITE_PIN then
    if (tmp >>> 16) &&& 0xffff < 8 then
      [.set_gpio_output ((tmp >>> 16) &&& 0xffff).toUInt8,
        .set_gpio_bit ((tmp >>> 16) &&& 0xffff).toUInt8 (tmp &&& 0xffff).toInt32]
    else []
  else if cmd = GPIO_READ_PIN then
    if 0 ≤ itmp ∧ itmp < 8 then [.get_gpio_bit tmp.toUInt8] else []
  else if cmd = GPIO_GET_BYTE then [.get_gpio_byte]
  else []

def SOCKET_ERROR : Int := -1

/-- The variables of `command_worker`, the two globals it sets, whether the thread has ended, the
    executed commands with what they called, and the bytes to come. -/
structure Worker where
  left : Nat
  received : Int
  cmd : Lib.Buffer UInt8 5
  tuner_check_timeout : UInt32
  tuner_unsupported : Bool
  freqhi : UInt32
  bandwidth : UInt32
  report_i2c : UInt32
  ended : Bool
  executed : List (Command × List Call)
  socket : Bytes

def start (stream : Bytes) : Worker :=
  { left := 5
    received := 0
    cmd := fun _ => 0
    tuner_check_timeout := 0
    tuner_unsupported := false
    freqhi := 0
    bandwidth := 0
    report_i2c := 0
    ended := false
    executed := []
    socket := stream }

/-- What one turn of the inner loop meets: whether `select` says that there is something, how many
    bytes have come behind the next one, the lock of the device, and `do_exit`. -/
structure Turn where
  ready : Option Nat
  lock : Int
  do_exit : Bool

def check_tuner_pll (w : Worker) (lock : Int) : Worker :=
  if lock = -2 then { w with tuner_unsupported := true } else w

def recv (w : Worker) (more : Nat) : Worker :=
  let got := w.socket.take (min (more + 1) w.left)
  { w with
    received := got.length
    left := w.left - got.length
    cmd := w.cmd.write (5 - w.left) got
    socket := w.socket.drop got.length }

def timeout (w : Worker) (lock : Int) : Worker :=
  if w.tuner_unsupported then w
  else if 3 ≤ w.tuner_check_timeout + 1 then
    { check_tuner_pll w lock with tuner_check_timeout := 0 }
  else { w with tuner_check_timeout := w.tuner_check_timeout + 1 }

/-- The `switch`. -/
def execute (gains : List Int32) (lock : Int) (w : Worker) (c : Command) : Worker :=
  let tmp := c.param
  if c.cmd = SET_FREQUENCY then
    if w.freqhi = 0 then
      { w with executed := w.executed ++ [(c, [.set_center_freq tmp])], freqhi := 0 }
    else
      let tmp64 := (w.freqhi.toUInt64 <<< 32) ||| tmp.toUInt64
      { w with executed := w.executed ++ [(c, [.set_center_freq64 tmp64])], freqhi := 0 }
  else if c.cmd = SET_FREQ_HI32 then
    { w with executed := w.executed ++ [(c, [])], freqhi := tmp }
  else if c.cmd = SET_TUNER_BANDWIDTH then
    { w with executed := w.executed ++ [(c, [.set_bandwidth tmp])], bandwidth := tmp }
  else if c.cmd = UDP_TERMINATE then
    { w with executed := w.executed ++ [(c, [])], ended := true }
  else if c.cmd = REPORT_I2C_REGS then
    { w with executed := w.executed ++ [(c, [])], report_i2c := flag tmp }
  else if c.cmd = IS_TUNER_PLL_LOCKED then
    { check_tuner_pll w lock with
      executed := w.executed ++ [(c, [.is_tuner_PLL_locked])]
      tuner_check_timeout := 0 }
  else { w with executed := w.executed ++ [(c, deviceCalls gains c.cmd tmp)] }

/-- Behind the check for the end of the thread. -/
def endOfTurn (gains : List Int32) (lock : Int) (w : Worker) : Worker :=
  if 0 < w.left then w
  else
    let w := execute gains lock w (.ofBytes (w.cmd.read 0 5))
    -- `cmd.cmd = 0xff`, and the head of the outer loop.
    { w with cmd := w.cmd.write 0 [0xff], left := 5 }

def turn (gains : List Int32) (w : Worker) (t : Turn) : Worker :=
  if w.ended then w
  else
    let w := match t.ready with
      | some more => recv w more
      | none => timeout w t.lock
    if w.received = SOCKET_ERROR ∨ t.do_exit then { w with ended := true }
    else endOfTurn gains t.lock w

/-- The thread behind so many turns. -/
def run (gains : List Int32) (stream : Bytes) (env : Nat → Turn) : Nat → Worker
  | 0 => start stream
  | n + 1 => turn gains (run gains stream env n) (env n)

def record (stream : Bytes) (i : Nat) : Command := .ofBytes ((stream.drop (5 * i)).take 5)

def records (stream : Bytes) : List Command :=
  (List.range (stream.length / 5)).map (record stream)

/-- The parameter of the last `SET_FREQ_HI32` since the last `SET_FREQUENCY`. -/
def pendingHigh : List Command → UInt32
  | before => ((before.reverse.takeWhile fun c => c.cmd ≠ SET_FREQUENCY).find? fun c =>
    c.cmd = SET_FREQ_HI32).elim 0 Command.param

/-- Each `SET_FREQUENCY` tunes once, to the word that was sent before and its own one. -/
def Tuned (executed : List (Command × List Call)) : Prop :=
  ∀ before c calls after, executed = before ++ (c, calls) :: after →
    calls.filterMap Call.tunes =
      if c.cmd = SET_FREQUENCY then
        [(pendingHigh (before.map Prod.fst)).toUInt64 <<< 32 ||| c.param.toUInt64]
      else []

/-- The thread ends, and has executed each complete record once and in order. -/
def Served (gains : List Int32) (stream : Bytes) (env : Nat → Turn) : Prop :=
  ∃ n, (run gains stream env n).ended = true ∧
    (run gains stream env n).executed.map Prod.fst = records stream ∧
    Tuned (run gains stream env n).executed

def arrive (stream : Bytes) (t : Turn) (before : Nat) : Nat :=
  match t.ready with
  | some more => before + min (min (more + 1) (5 - before % 5)) (stream.length - before)
  | none => before

/-- How many bytes `recv` gives in the first turns, whatever they say. -/
def arrivals (stream : Bytes) (env : Nat → Turn) : Nat → Nat
  | 0 => 0
  | n + 1 => arrive stream (env n) (arrivals stream env n)

theorem arrive_le {stream : Bytes} (t : Turn) {a : Nat} (within : a ≤ stream.length) :
    arrive stream t a ≤ stream.length := by
  rw [arrive]
  cases t.ready with
  | none => exact within
  | some more =>
    simp only
    omega

theorem arrivals_le (stream : Bytes) (env : Nat → Turn) (n : Nat) :
    arrivals stream env n ≤ stream.length := by
  induction n with
  | zero => exact Nat.zero_le _
  | succ n ih => exact arrive_le (env n) ih

theorem le_arrive (stream : Bytes) (t : Turn) (a : Nat) : a ≤ arrive stream t a := by
  rw [arrive]
  cases t.ready with
  | none => exact Nat.le_refl _
  | some more => exact Nat.le_add_right _ _

variable {n : Nat}

theorem arrivals_mono (stream : Bytes) (env : Nat → Turn) {m : Nat} (before : m ≤ n) :
    arrivals stream env m ≤ arrivals stream env n := by
  induction before with
  | refl => exact Nat.le_refl _
  | step before ih => exact Nat.le_trans ih (le_arrive _ _ _)

def front (stream : Bytes) (k : Nat) : List Command := (List.range k).map (record stream)

theorem front_succ (stream : Bytes) (k : Nat) :
    front stream (k + 1) = front stream k ++ [record stream k] := by
  rw [front, List.range_succ, List.map_append]
  rfl

theorem front_length (stream : Bytes) (k : Nat) : (front stream k).length = k := by
  rw [front, List.length_map, List.length_range]

theorem records_eq (stream : Bytes) : records stream = front stream (stream.length / 5) := rfl

theorem front_eq_records {stream : Bytes} {k : Nat} (same : front stream k = records stream) :
    k = stream.length / 5 := by
  have lengths := congrArg List.length same
  rwa [front_length, records_eq, front_length] at lengths

theorem pendingHigh_snoc (before : List Command) (c : Command) :
    pendingHigh (before ++ [c]) =
      if c.cmd = SET_FREQUENCY then 0
      else if c.cmd = SET_FREQ_HI32 then c.param
      else pendingHigh before := by
  rw [pendingHigh, List.reverse_append, List.reverse_singleton, List.singleton_append,
    List.takeWhile_cons]
  by_cases frequency : c.cmd = SET_FREQUENCY
  · simp [frequency]
  · by_cases high : c.cmd = SET_FREQ_HI32
    · have apart : SET_FREQ_HI32 ≠ SET_FREQUENCY := by decide
      simp [high, apart]
    · simp [frequency, high, pendingHigh]

theorem tuned_nil : Tuned [] := by
  intro before c calls after whole
  cases before <;> cases whole

theorem tuned_snoc {executed : List (Command × List Call)} {c : Command} {calls : List Call}
    (tuned : Tuned executed) (tunes : calls.filterMap Call.tunes =
      if c.cmd = SET_FREQUENCY then
        [(pendingHigh (executed.map Prod.fst)).toUInt64 <<< 32 ||| c.param.toUInt64]
      else []) : Tuned (executed ++ [(c, calls)]) := by
  intro before d others after whole
  rcases List.eq_nil_or_concat after with rfl | ⟨init, last, rfl⟩
  · obtain ⟨rfl, last⟩ := List.append_inj' whole rfl
    cases last
    exact tunes
  · rw [List.concat_eq_append, ← List.cons_append, ← List.append_assoc] at whole
    exact tuned before d others init (List.append_inj' whole rfl).1

variable (gains : List Int32)

theorem set_gain_by_index_tunes (index : UInt32) :
    (set_gain_by_index gains index).filterMap Call.tunes = [] := by
  rw [set_gain_by_index]
  cases gains[index.toNat]? <;> rfl

theorem deviceCalls_tunes (cmd : UInt8) (tmp : UInt32) :
    (deviceCalls gains cmd tmp).filterMap Call.tunes = [] := by
  simp only [deviceCalls, apply_ite (List.filterMap Call.tunes), set_gain_by_index_tunes,
    List.filterMap_cons, List.filterMap_nil, Call.tunes, ite_self]

structure Executes (w : Worker) (c : Command) (calls : List Call) (w' : Worker) : Prop where
  executed : w'.executed = w.executed ++ [(c, calls)]
  tunes : calls.filterMap Call.tunes =
    if c.cmd = SET_FREQUENCY then [w.freqhi.toUInt64 <<< 32 ||| c.param.toUInt64] else []
  ended : w'.ended = decide (c.cmd = UDP_TERMINATE)
  freqhi : w'.freqhi =
    if c.cmd = SET_FREQUENCY then 0 else if c.cmd = SET_FREQ_HI32 then c.param else w.freqhi
  received : w'.received = w.received
  socket : w'.socket = w.socket

theorem check_tuner_pll_same (w : Worker) (lock : Int) :
    ∃ unsupported, check_tuner_pll w lock = { w with tuner_unsupported := unsupported } := by
  rw [check_tuner_pll]
  split
  · exact ⟨_, rfl⟩
  · exact ⟨w.tuner_unsupported, rfl⟩

theorem execute_executes (lock : Int) (w : Worker) (c : Command)
    (running : w.ended = false) : ∃ calls, Executes w c calls (execute gains lock w c) := by
  obtain ⟨cmd, tmp⟩ := c
  by_cases frequency : cmd = SET_FREQUENCY
  · subst frequency
    by_cases low : w.freqhi = 0
    · refine ⟨[.set_center_freq tmp], ?_⟩
      simp only [execute, if_true, low]
      exact ⟨rfl, by simp [Call.tunes, low], running, rfl, rfl, rfl⟩
    · refine ⟨[.set_center_freq64 (w.freqhi.toUInt64 <<< 32 ||| tmp.toUInt64)], ?_⟩
      simp only [execute, if_true, low, if_false]
      exact ⟨rfl, rfl, running, rfl, rfl, rfl⟩
  · by_cases high : cmd = SET_FREQ_HI32
    · subst high
      exact ⟨[], rfl, rfl, running, rfl, rfl, rfl⟩
    · by_cases terminate : cmd = UDP_TERMINATE
      · subst terminate
        exact ⟨[], rfl, rfl, rfl, rfl, rfl, rfl⟩
      · obtain ⟨unsupported, checked⟩ := check_tuner_pll_same w lock
        have apart : w.ended = decide (cmd = UDP_TERMINATE) := by
          rw [running, decide_eq_false terminate]
        have kept : w.freqhi = if cmd = SET_FREQUENCY then 0
            else if cmd = SET_FREQ_HI32 then tmp else w.freqhi := by
          rw [if_neg frequency, if_neg high]
        simp only [execute, frequency, high, terminate, if_false, checked]
        split_ifs
        · exact ⟨[.set_bandwidth tmp], rfl, (if_neg frequency).symm, apart, kept, rfl, rfl⟩
        · exact ⟨[], rfl, (if_neg frequency).symm, apart, kept, rfl, rfl⟩
        · exact ⟨[.is_tuner_PLL_locked], rfl, (if_neg frequency).symm, apart, kept, rfl, rfl⟩
        · refine ⟨deviceCalls gains cmd tmp, rfl, ?_, apart, kept, rfl, rfl⟩
          rw [if_neg frequency, deviceCalls_tunes]

variable {g : List Int32} {stream : Bytes} {env : Nat → Turn}

/-- The thread has executed the first `r` records, and holds `f` bytes of the next one. -/
structure Holds (stream : Bytes) (r f : Nat) (w : Worker) : Prop where
  running : w.ended = false
  socket : w.socket = stream.drop (5 * r + f)
  left : w.left = 5 - f
  cmd : w.cmd.read 0 f = (stream.drop (5 * r)).take f
  received : 0 ≤ w.received
  executed : w.executed.map Prod.fst = front stream r
  freqhi : w.freqhi = pendingHigh (front stream r)
  tuned : Tuned w.executed

theorem holds_start (stream : Bytes) : Holds stream 0 0 (start stream) where
  running := rfl
  socket := rfl
  left := rfl
  cmd := rfl
  received := Int.le_refl 0
  executed := rfl
  freqhi := rfl
  tuned := tuned_nil

variable {r f : Nat} {w : Worker}

theorem Holds.timeout (holds : Holds stream r f w) (lock : Int) :
    Holds stream r f (timeout w lock) := by
  obtain ⟨unsupported, checked⟩ := check_tuner_pll_same w lock
  rw [Commands.timeout, checked]
  split_ifs
  · exact holds
  · exact { holds with }
  · exact { holds with }

theorem Holds.recv (holds : Holds stream r f w) (few : f ≤ 5) (more : Nat) :
    Holds stream r (f + min (min (more + 1) (5 - f)) (stream.length - (5 * r + f)))
      (recv w more) := by
  have got : (w.socket.take (min (more + 1) w.left)).length =
      min (min (more + 1) (5 - f)) (stream.length - (5 * r + f)) := by
    rw [List.length_take, holds.socket, holds.left, List.length_drop]
  generalize count : min (min (more + 1) (5 - f)) (stream.length - (5 * r + f)) = k at got
  have behind : 5 - w.left = f := by
    have left := holds.left
    omega
  constructor
  · exact holds.running
  · rw [Commands.recv]
    simp only
    rw [got, holds.socket, List.drop_drop, Nat.add_assoc]
  · rw [Commands.recv]
    simp only
    rw [got, holds.left, Nat.sub_sub]
  · rw [Commands.recv]
    simp only
    rw [behind, ← got, Lib.Buffer.read_write _ _ _ (by omega), holds.cmd]
    rw [List.take_add, List.drop_drop, ← holds.socket, List.length_take,
      ← List.take_eq_take_min]
  · exact Int.natCast_nonneg _
  · exact holds.executed
  · exact holds.freqhi
  · exact holds.tuned

theorem Holds.command (holds : Holds stream r 5 w) (lock : Int)
    (goes_on : (record stream r).cmd ≠ UDP_TERMINATE) :
    Holds stream (r + 1) 0 (endOfTurn g lock w) := by
  have whole : w.left = 0 := holds.left
  obtain ⟨calls, executes⟩ := execute_executes g lock w (record stream r) holds.running
  rw [endOfTurn, whole, if_neg (Nat.lt_irrefl 0), holds.cmd]
  constructor
  · exact executes.ended.trans (decide_eq_false goes_on)
  · exact executes.socket.trans holds.socket
  · rfl
  · rfl
  · exact executes.received.symm ▸ holds.received
  · change (execute g lock w (record stream r)).executed.map Prod.fst = _
    rw [executes.executed, List.map_append, holds.executed, front_succ]
    rfl
  · change (execute g lock w (record stream r)).freqhi = _
    rw [executes.freqhi, front_succ, pendingHigh_snoc, holds.freqhi]
  · change Tuned (execute g lock w (record stream r)).executed
    rw [executes.executed]
    apply tuned_snoc holds.tuned
    rw [executes.tunes, holds.executed, holds.freqhi]

/-- The thread has ended behind the first `r` records. -/
structure Left (stream : Bytes) (r : Nat) (w : Worker) : Prop where
  ended : w.ended = true
  executed : w.executed.map Prod.fst = front stream r
  tuned : Tuned w.executed

theorem Holds.terminate (holds : Holds stream r 5 w) (lock : Int)
    (terminates : (record stream r).cmd = UDP_TERMINATE) :
    Left stream (r + 1) (endOfTurn g lock w) := by
  have whole : w.left = 0 := holds.left
  obtain ⟨calls, executes⟩ := execute_executes g lock w (record stream r) holds.running
  rw [endOfTurn, whole, if_neg (Nat.lt_irrefl 0), holds.cmd]
  constructor
  · exact executes.ended.trans (decide_eq_true terminates)
  · change (execute g lock w (record stream r)).executed.map Prod.fst = _
    rw [executes.executed, List.map_append, holds.executed, front_succ]
    rfl
  · change Tuned (execute g lock w (record stream r)).executed
    rw [executes.executed]
    apply tuned_snoc holds.tuned
    rw [executes.tunes, holds.executed, holds.freqhi]

theorem Holds.exits (holds : Holds stream r f w) (few : f ≤ 5) {t : Turn}
    (exits : t.do_exit = true) : Left stream r (turn g w t) := by
  rw [turn, holds.running]
  cases t.ready with
  | none =>
    have later := holds.timeout t.lock
    simp only [exits, or_true, if_true, Bool.false_eq_true, if_false]
    exact ⟨rfl, later.executed, later.tuned⟩
  | some more =>
    have later := holds.recv few more
    simp only [exits, or_true, if_true, Bool.false_eq_true, if_false]
    exact ⟨rfl, later.executed, later.tuned⟩

theorem Holds.no_error (holds : Holds stream r f w) : w.received ≠ SOCKET_ERROR := by
  have received := holds.received
  rw [SOCKET_ERROR]
  omega

theorem Holds.turn_eq (holds : Holds stream r f w) (few : f < 5) {t : Turn}
    (stays : t.do_exit = false) :
    ∃ w', Holds stream r (arrive stream t (5 * r + f) - 5 * r) w' ∧
      turn g w t = endOfTurn g t.lock w' := by
  rw [turn, holds.running, arrive]
  cases t.ready with
  | none =>
    have later := holds.timeout t.lock
    refine ⟨Commands.timeout w t.lock, ?_, ?_⟩
    · simp only [Nat.add_sub_cancel_left]
      exact later
    · simp [stays, later.no_error]
  | some more =>
    have later := holds.recv few.le more
    refine ⟨Commands.recv w more, ?_, ?_⟩
    · have rest : (5 * r + f) % 5 = f := by omega
      simp only [rest, Nat.add_assoc, Nat.add_sub_cancel_left]
      exact later
    · simp [stays, later.no_error]

theorem arrive_bound (stream : Bytes) (t : Turn) (r : Nat) {f : Nat} (few : f < 5) :
    arrive stream t (5 * r + f) ≤ 5 * r + 5 := by
  rw [arrive]
  cases t.ready with
  | none =>
    simp only
    omega
  | some more =>
    have rest : (5 * r + f) % 5 = f := by omega
    simp only [rest]
    omega

/-- The thread that the bytes `a` have reached. -/
def At (stream : Bytes) (a : Nat) (w : Worker) : Prop := Holds stream (a / 5) (a % 5) w

theorem At.turn {a : Nat} (holds : At stream a w) {t : Turn} (stays : t.do_exit = false)
    (goes_on : ∀ i < arrive stream t a / 5, (record stream i).cmd ≠ UDP_TERMINATE) :
    At stream (arrive stream t a) (Commands.turn g w t) := by
  have few : a % 5 < 5 := Nat.mod_lt _ (by decide)
  obtain ⟨w', later, same⟩ := Holds.turn_eq holds few stays
  have upper := arrive_bound stream t (a / 5) few
  have lower := le_arrive stream t a
  rw [Nat.div_add_mod] at later upper
  rw [same]
  by_cases whole : arrive stream t a = 5 * (a / 5) + 5
  · have next : (5 * (a / 5) + 5) / 5 = a / 5 + 1 := by omega
    rw [whole, Nat.add_sub_cancel_left] at later
    have done := later.command (g := g) t.lock (goes_on _ (by rw [whole, next]; omega))
    rw [At, whole, next, Nat.mul_add_mod]
    exact done
  · have here : arrive stream t a / 5 = a / 5 := by omega
    have part : arrive stream t a % 5 = arrive stream t a - 5 * (a / 5) := by omega
    have left : 0 < w'.left := by
      rw [later.left]
      omega
    rw [At, here, part, endOfTurn, if_pos left]
    exact later

theorem At.terminates {a : Nat} (holds : At stream a w) {t : Turn} (stays : t.do_exit = false)
    (more : a / 5 < arrive stream t a / 5)
    (terminates : (record stream (a / 5)).cmd = UDP_TERMINATE) :
    Left stream (a / 5 + 1) (Commands.turn g w t) := by
  have few : a % 5 < 5 := Nat.mod_lt _ (by decide)
  obtain ⟨w', later, same⟩ := Holds.turn_eq holds few stays
  have upper := arrive_bound stream t (a / 5) few
  rw [Nat.div_add_mod] at later upper
  have whole : arrive stream t a = 5 * (a / 5) + 5 := by omega
  rw [whole, Nat.add_sub_cancel_left] at later
  rw [same]
  exact later.terminate t.lock terminates

theorem run_at (stays : ∀ m < n, (env m).do_exit = false)
    (goes_on : ∀ i < arrivals stream env n / 5, (record stream i).cmd ≠ UDP_TERMINATE) :
    At stream (arrivals stream env n) (run g stream env n) := by
  induction n with
  | zero =>
    rw [At, arrivals]
    exact holds_start stream
  | succ n ih =>
    have fewer := Nat.div_le_div_right (c := 5) (arrivals_mono stream env n.le_succ)
    have before := ih (fun m below => stays m (below.trans n.lt_succ_self))
      (fun i below => goes_on i (below.trans_le fewer))
    exact before.turn (stays n n.lt_succ_self) goes_on

theorem run_ended (ended : (run g stream env n).ended = true) {m : Nat}
    (later : n ≤ m) : run g stream env m = run g stream env n := by
  induction later with
  | refl => rfl
  | step later ih => rw [run, turn, ih, ended, if_pos rfl]

theorem goes_on_or
    (goes_on : ∀ i < arrivals stream env n / 5, (record stream i).cmd ≠ UDP_TERMINATE) :
    (∀ i < arrivals stream env (n + 1) / 5, (record stream i).cmd ≠ UDP_TERMINATE) ∨
      arrivals stream env n / 5 < arrivals stream env (n + 1) / 5 ∧
        (record stream (arrivals stream env n / 5)).cmd = UDP_TERMINATE := by
  have upper := arrive_bound stream (env n) (arrivals stream env n / 5)
    (Nat.mod_lt (arrivals stream env n) (by decide))
  rw [Nat.div_add_mod] at upper
  change arrivals stream env (n + 1) ≤ _ at upper
  by_cases more : arrivals stream env n / 5 < arrivals stream env (n + 1) / 5
  · by_cases last : (record stream (arrivals stream env n / 5)).cmd = UDP_TERMINATE
    · exact .inr ⟨more, last⟩
    · refine .inl fun i below => ?_
      by_cases here : i = arrivals stream env n / 5
      · rw [here]
        exact last
      · exact goes_on i (by omega)
  · exact .inl fun i below => goes_on i (by omega)

theorem running {n : Nat} (running : (run g stream env n).ended = false) :
    (∀ m < n, (env m).do_exit = false) ∧
      ∀ i < arrivals stream env n / 5, (record stream i).cmd ≠ UDP_TERMINATE := by
  induction n with
  | zero =>
    refine ⟨nofun, fun i below => ?_⟩
    rw [arrivals] at below
    cases below
  | succ n ih =>
    have before : (run g stream env n).ended = false := by
      rw [← Bool.not_eq_true]
      intro ended
      rw [run_ended ended n.le_succ, ended] at running
      cases running
    obtain ⟨stays, goes_on⟩ := ih before
    have holds := run_at (g := g) stays goes_on
    cases exits : (env n).do_exit with
    | true =>
      have left := holds.exits (g := g) (Nat.mod_lt _ (by decide)).le exits
      cases running.symm.trans left.ended
    | false =>
      rcases goes_on_or goes_on with goes_on | ⟨more, terminates⟩
      · refine ⟨fun m below => ?_, goes_on⟩
        rcases Nat.lt_succ_iff_lt_or_eq.mp below with below | rfl
        · exact stays m below
        · exact exits
      · have left := holds.terminates (g := g) exits more terminates
        cases running.symm.trans left.ended

theorem exists_last (ended : (run g stream env n).ended = true) :
    ∃ m, (∀ k < m, (env k).do_exit = false) ∧
      (∀ i < arrivals stream env m / 5, (record stream i).cmd ≠ UDP_TERMINATE) ∧
      ((env m).do_exit = true ∧
          Left stream (arrivals stream env m / 5) (run g stream env n) ∨
        (env m).do_exit = false ∧
          arrivals stream env m / 5 < arrivals stream env (m + 1) / 5 ∧
          (record stream (arrivals stream env m / 5)).cmd = UDP_TERMINATE ∧
          Left stream (arrivals stream env m / 5 + 1) (run g stream env n)) := by
  induction n with
  | zero => cases ended
  | succ n ih =>
    cases before : (run g stream env n).ended with
    | true =>
      rw [run_ended before n.le_succ]
      exact ih before
    | false =>
      obtain ⟨stays, goes_on⟩ := running before
      have holds := run_at (g := g) stays goes_on
      refine ⟨n, stays, goes_on, ?_⟩
      cases exits : (env n).do_exit with
      | true => exact .inl ⟨rfl, holds.exits (Nat.mod_lt _ (by decide)).le exits⟩
      | false =>
        rcases goes_on_or goes_on with goes_on | ⟨more, terminates⟩
        · have later := holds.turn (g := g) exits goes_on
          rw [run, later.running] at ended
          cases ended
        · exact .inr ⟨rfl, more, terminates, holds.terminates exits more terminates⟩

def Comes (stream : Bytes) (env : Nat → Turn) : Prop :=
  records stream = [] ∨ ∃ n, 5 * (records stream).length ≤ arrivals stream env (n + 1) ∧
    ∀ m ≤ n, (env m).do_exit = false

/-- Only the last record is `UDP_TERMINATE`. -/
def TerminatesLast (cmds : List Command) : Prop :=
  ∃ before last, cmds = before ++ [last] ∧ last.cmd = UDP_TERMINATE ∧
    ∀ c ∈ before, c.cmd ≠ UDP_TERMINATE

theorem records_length (stream : Bytes) : (records stream).length = stream.length / 5 := by
  rw [records_eq, front_length]

theorem mem_records {stream : Bytes} {i : Nat} (below : i < stream.length / 5) :
    record stream i ∈ records stream :=
  List.mem_map_of_mem (List.mem_range.mpr below)

theorem exists_record {stream : Bytes} {c : Command} (member : c ∈ records stream) :
    ∃ i < stream.length / 5, record stream i = c := by
  obtain ⟨i, below, same⟩ := List.mem_map.mp member
  exact ⟨i, List.mem_range.mp below, same⟩

theorem served_of_left {r : Nat} (left : Left stream r (run g stream env n))
    (all : r = stream.length / 5) : Served g stream env := by
  refine ⟨n, left.ended, ?_, left.tuned⟩
  rw [left.executed, all, records_eq]

theorem served_of_exit (comes : Comes stream env)
    (goes_on : ∀ c ∈ records stream, c.cmd ≠ UDP_TERMINATE) (exits : ∃ n, (env n).do_exit = true) :
    Served g stream env := by
  have first := Nat.find_spec exits
  have before : ∀ m < Nat.find exits, (env m).do_exit = false :=
    fun m below => Bool.eq_false_iff.mpr (Nat.find_min exits below)
  have within := Nat.div_le_div_right (c := 5) (arrivals_le stream env (Nat.find exits))
  have holds := run_at (g := g) before
    fun i below => goes_on _ (mem_records (below.trans_le within))
  refine served_of_left (n := Nat.find exits + 1)
    (holds.exits (Nat.mod_lt _ (by decide)).le first) (Nat.le_antisymm within ?_)
  rcases comes with none | ⟨n, enough, stays⟩
  · rw [← records_length, none]
    exact Nat.zero_le _
  · have earlier : n + 1 ≤ Nat.find exits := by
      by_contra later
      rw [stays (Nat.find exits) (by omega)] at first
      cases first
    have all := arrivals_mono stream env earlier
    rw [records_length] at enough
    omega

theorem served_of_terminate (comes : Comes stream env)
    (terminates : TerminatesLast (records stream)) : Served g stream env := by
  obtain ⟨before, last, whole, terminate, goes_on⟩ := terminates
  have count : before.length + 1 = stream.length / 5 := by
    rw [← records_length, whole, List.length_append]
    rfl
  have fronts : before = front stream before.length ∧ last = record stream before.length := by
    rw [records_eq, ← count, front_succ] at whole
    obtain ⟨same, last⟩ := List.append_inj' whole rfl
    exact ⟨same.symm, (List.singleton_inj.mp last).symm⟩
  rcases comes with none | comes
  · rw [none] at whole
    cases before <;> cases whole
  · have exists_first : ∃ n, 5 * (records stream).length ≤ arrivals stream env (n + 1) :=
      comes.imp fun _ holds => holds.1
    obtain ⟨n, enough, stays⟩ := comes
    have first := Nat.find_spec exists_first
    have earlier : Nat.find exists_first ≤ n := Nat.find_min' exists_first enough
    generalize found : Nat.find exists_first = m at first earlier
    have short : arrivals stream env m < 5 * (records stream).length := by
      cases m with
      | zero =>
        rw [records_length, arrivals]
        omega
      | succ k => exact Nat.not_le.mp (Nat.find_min exists_first (by omega))
    have upper := arrive_bound stream (env m) (arrivals stream env m / 5)
      (Nat.mod_lt (arrivals stream env m) (by decide))
    rw [Nat.div_add_mod] at upper
    change arrivals stream env (m + 1) ≤ _ at upper
    rw [records_length] at first short
    have here : arrivals stream env m / 5 = before.length := by omega
    have holds : At stream (arrivals stream env m) (run g stream env m) := by
      refine run_at (fun k below => stays k (by omega)) fun i below => ?_
      apply goes_on
      rw [fronts.1]
      exact List.mem_map_of_mem (List.mem_range.mpr (here ▸ below))
    have left := holds.terminates (g := g) (stays m earlier)
      (show _ < arrivals stream env (m + 1) / 5 by omega) (by rw [here, ← fronts.2, terminate])
    exact served_of_left (n := m + 1) left (by omega)

/-- `recv` returns 0 without end when the client has gone, so that the thread ends only where a
record or another thread asks for it. -/
theorem served_iff (g : List Int32) (stream : Bytes) (env : Nat → Turn) :
    Served g stream env ↔
      Comes stream env ∧
        (TerminatesLast (records stream) ∨
          (∀ c ∈ records stream, c.cmd ≠ UDP_TERMINATE) ∧ ∃ n, (env n).do_exit = true) := by
  constructor
  · rintro ⟨n, ended, executed, tuned⟩
    obtain ⟨m, stays, goes_on, ⟨exits, left⟩ | ⟨stays_on, more, terminates, left⟩⟩ :=
      exists_last ended
    · have all := front_eq_records (left.executed.symm.trans executed)
      refine ⟨?_, .inr ⟨?_, m, exits⟩⟩
      · cases m with
        | zero =>
          left
          rw [records_eq, ← all, arrivals]
          rfl
        | succ m =>
          refine .inr ⟨m, ?_, fun k below => stays k (Nat.lt_succ_of_le below)⟩
          rw [records_length]
          omega
      · intro c member
        obtain ⟨i, below, rfl⟩ := exists_record member
        exact goes_on i (all.symm ▸ below)
    · have all := front_eq_records (left.executed.symm.trans executed)
      refine ⟨.inr ⟨m, ?_, ?_⟩, .inl ⟨front stream (arrivals stream env m / 5), _, ?_, terminates, ?_⟩⟩
      · rw [records_length]
        omega
      · intro k below
        rcases Nat.lt_or_eq_of_le below with below | rfl
        · exact stays k below
        · exact stays_on
      · rw [records_eq, ← all, front_succ]
      · intro c member
        obtain ⟨i, below, rfl⟩ := List.mem_map.mp member
        exact goes_on i (List.mem_range.mp below)
  · rintro ⟨comes, terminates | ⟨goes_on, exits⟩⟩
    · exact served_of_terminate comes terminates
    · exact served_of_exit comes goes_on exits

/-- One command comes in two parts, the client closes the connection, and no other thread asks for
the exit. -/
theorem never_ends : ¬ Served [] [0x01, 0x05, 0xF5, 0xE1, 0x00] fun n =>
    ⟨if n = 1 then none else some 1, 0, false⟩ := by
  rw [served_iff]
  rintro ⟨_, ⟨before, last, whole, terminate, _⟩ | ⟨_, n, exits⟩⟩
  · have same : last = ⟨0x01, 100000000⟩ := by
      cases before with
      | nil => exact (List.singleton_inj.mp whole).symm
      | cons c rest => cases rest <;> cases whole
    rw [same] at terminate
    exact absurd terminate (by decide)
  · cases exits

end Soapy.Rtl.Tcp.Commands
