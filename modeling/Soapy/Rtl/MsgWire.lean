import Soapy.Rtl.MsgBounds

/-! # Messages on the wire

What one side pushes, the other side pops: the bytes up to the offset travel, and the
receiver finds them in front of whatever its buffer held before.
-/

namespace Soapy.Rtl

open Lib

/-- `rtlsdr_rpc_op_t`, in the order of the codes. -/
inductive Op where
  | get_device_count | get_device_name | get_device_usb_strings | get_index_by_serial
  | open | close | set_xtal_freq | get_xtal_freq | get_usb_strings | write_eeprom | read_eeprom
  | set_center_freq | get_center_freq | set_freq_correction | get_freq_correction | get_tuner_type
  | get_tuner_gains | set_tuner_gain | get_tuner_gain | set_tuner_if_gain | set_tuner_gain_mode
  | set_get_tuner_bw | set_sample_rate | get_sample_rate | set_testmode | set_agc_mode
  | set_direct_sampling | get_direct_sampling | set_offset_tuning | get_offset_tuning
  | reset_buffer | read_sync | wait_async | read_async | cancel_async | event_state | invalid
deriving DecidableEq

namespace Op

def all : List Op :=
  [get_device_count, get_device_name, get_device_usb_strings, get_index_by_serial, .open, close,
    set_xtal_freq, get_xtal_freq, get_usb_strings, write_eeprom, read_eeprom, set_center_freq,
    get_center_freq, set_freq_correction, get_freq_correction, get_tuner_type, get_tuner_gains,
    set_tuner_gain, get_tuner_gain, set_tuner_if_gain, set_tuner_gain_mode, set_get_tuner_bw,
    set_sample_rate, get_sample_rate, set_testmode, set_agc_mode, set_direct_sampling,
    get_direct_sampling, set_offset_tuning, get_offset_tuning, reset_buffer, read_sync, wait_async,
    read_async, cancel_async, event_state, invalid]

def code (op : Op) : UInt8 := UInt8.ofNat (all.idxOf op)

/-- `none` is a code behind the last one. -/
def ofCode (code : UInt8) : Option Op := all[code.toNat]?

theorem ofCode_code (op : Op) : ofCode op.code = some op := by
  cases op <;> rfl

end Op

/-- The four bytes of a word; a signed number goes as the word of the same bits. -/
def u32 (x : UInt32) : Bytes := toLE 4 x.toNat

@[simp] theorem u32_length (x : UInt32) : (u32 x).length = 4 := toLE_length ..

namespace Msg

def get_op (msg : Msg) : Option Op := Op.ofCode (msg.fmt 4)

def get_err (msg : Msg) : Int32 := (UInt32.ofNat (ofLE (msg.fmt.load 6 4))).toInt32

def set_op (msg : Msg) (op : Op) : Msg := { msg with fmt := msg.fmt.store 4 [op.code] }

/-- The id is put as two bytes, the second of which is the first of the error. -/
def set_id (msg : Msg) (id : UInt8) : Msg := { msg with fmt := msg.fmt.store 5 [id, 0] }

def set_err (msg : Msg) (err : Int32) : Msg :=
  { msg with fmt := msg.fmt.store 6 (u32 err.toUInt32) }

/-- `check_size_or_realloc`; `fresh` is what a new allocation holds. -/
def check_size_or_realloc (msg : Msg) (size : Nat) (fresh : Memory) : Msg :=
  if msg.CheckSize size then msg
  else
    { msg with
      fmt := fresh.store 0 (msg.fmt.load 0 msg.off)
      size := (msg.off + size + 256) / 256 * 256 }

def push_mem_safe (msg : Msg) (bs : Bytes) : Msg :=
  { msg with fmt := msg.fmt.store msg.off bs, off := msg.off + bs.length }

def push_mem (msg : Msg) (bs : Bytes) (fresh : Memory) : Msg :=
  (msg.check_size_or_realloc bs.length fresh).push_mem_safe bs

/-- Also `push_int32`. -/
def push_uint32 (msg : Msg) (x : UInt32) (fresh : Memory) : Msg := msg.push_mem (u32 x) fresh

def push_str (msg : Msg) (s : Bytes) (fresh : Memory) : Msg := msg.push_mem (s ++ [0]) fresh

def sent (msg : Msg) : Bytes := msg.fmt.load 0 msg.off

end Msg

namespace Msg

variable {msg : Msg}

theorem load_set_size (msg : Msg) (size : Nat) {offset count : Nat} (behind : 4 ≤ offset) :
    (msg.set_size size).fmt.load offset count = msg.fmt.load offset count := by
  change (msg.fmt.store 0 (toLE 4 size)).load offset count = _
  apply Memory.load_store_disjoint
  rw [toLE_length]
  exact Or.inr behind

theorem load_set_size_front (msg : Msg) (size : Nat) :
    (msg.set_size size).fmt.load 0 4 = toLE 4 size := by
  have stored := Memory.load_store_front msg.fmt (show 4 ≤ (toLE 4 size).length by rw [toLE_length])
  rwa [List.take_of_length_le (le_of_eq (toLE_length 4 size))] at stored

theorem set_op_byte (msg : Msg) (op : Op) : (msg.set_op op).fmt 4 = op.code :=
  @Memory.store_inside msg.fmt 4 0 [op.code] Nat.one_pos

theorem set_op_behind (msg : Msg) (op : Op) {i : Nat} (behind : 5 ≤ i) :
    (msg.set_op op).fmt i = msg.fmt i := by
  change msg.fmt.store 4 [op.code] i = _
  exact Memory.store_outside (Or.inr behind)

theorem set_id_byte (msg : Msg) (id : UInt8) : (msg.set_id id).fmt 5 = id :=
  @Memory.store_inside msg.fmt 5 0 [id, 0] Nat.two_pos

theorem sent_length (msg : Msg) : msg.sent.length = msg.off := Memory.load_length ..

@[simp] theorem push_mem_off (msg : Msg) (bs : Bytes) (fresh : Memory) :
    (msg.push_mem bs fresh).off = msg.off + bs.length := by
  unfold push_mem push_mem_safe check_size_or_realloc
  split <;> rfl

theorem check_size_or_realloc_sent (msg : Msg) (size : Nat) (fresh : Memory) :
    (msg.check_size_or_realloc size fresh).sent = msg.sent := by
  unfold check_size_or_realloc
  split
  · rfl
  · have copied := Memory.load_store_front fresh (le_of_eq msg.sent_length.symm)
    exact copied.trans (List.take_of_length_le (le_of_eq msg.sent_length))

@[simp] theorem push_mem_sent (msg : Msg) (bs : Bytes) (fresh : Memory) :
    (msg.push_mem bs fresh).sent = msg.sent ++ bs := by
  rw [← check_size_or_realloc_sent msg bs.length fresh]
  exact Memory.load_store_behind ..

def Holds (msg : Msg) (data : Bytes) : Prop :=
  msg.off + data.length ≤ msg.size ∧ msg.fmt.load msg.off data.length = data

theorem Holds.front {data more : Bytes} (holds : msg.Holds (data ++ more)) : msg.Holds data := by
  obtain ⟨room, stands⟩ := holds
  rw [List.length_append] at room
  rw [List.length_append, Memory.load_add] at stands
  exact ⟨by omega, (List.append_inj stands (Memory.load_length ..)).1⟩

theorem Holds.behind {data more : Bytes} (holds : msg.Holds (data ++ more)) :
    Holds { msg with off := msg.off + data.length } more := by
  obtain ⟨room, stands⟩ := holds
  rw [List.length_append] at room
  rw [List.length_append, Memory.load_add] at stands
  exact ⟨by simp only; omega, (List.append_inj stands (Memory.load_length ..)).2⟩

end Msg

abbrev Pop (α : Type) := StateT Msg Option α

namespace Pop

def uint32 : Pop UInt32 := fun msg => msg.pop_uint32.map (fun p => (UInt32.ofNat p.1, p.2))

def int32 : Pop Int32 := UInt32.toInt32 <$> uint32

def str : Pop Bytes := Msg.pop_str

/-- The pops take exactly these bytes and return `a`, whatever follows. -/
def Reads {α : Type} (pop : Pop α) (bs : Bytes) (a : α) : Prop :=
  ∀ (msg : Msg) (rest : Bytes), msg.Holds (bs ++ rest) →
    ∃ msg', pop msg = some (a, msg') ∧ msg'.Holds rest

variable {α β : Type}

theorem reads_pure (a : α) : (pure a : Pop α).Reads [] a :=
  fun msg _ holds => ⟨msg, rfl, holds⟩

theorem reads_bind {pop : Pop α} {next : α → Pop β} {bs more : Bytes} {a : α} {b : β}
    (first : pop.Reads bs a) (second : (next a).Reads more b) :
    (pop >>= next).Reads (bs ++ more) b := by
  intro msg rest holds
  rw [List.append_assoc] at holds
  obtain ⟨msg₁, popped, left⟩ := first msg _ holds
  obtain ⟨msg₂, poppedNext, leftNext⟩ := second msg₁ _ left
  refine ⟨msg₂, ?_, leftNext⟩
  change (pop msg).bind _ = _
  rw [popped]
  exact poppedNext

theorem reads_map {pop : Pop α} {bs : Bytes} {a : α} (f : α → β) (reads : pop.Reads bs a) :
    (f <$> pop).Reads bs (f a) := by
  intro msg rest holds
  obtain ⟨msg', popped, left⟩ := reads msg rest holds
  refine ⟨msg', ?_, left⟩
  change (pop msg).bind _ = _
  rw [popped]
  rfl

theorem reads_uint32 (x : UInt32) : uint32.Reads (u32 x) x := by
  intro msg rest holds
  have behind := holds.behind
  obtain ⟨room, stands⟩ := holds.front
  rw [u32_length] at room stands behind
  refine ⟨{ msg with off := msg.off + 4 }, ?_, behind⟩
  have word : x.toNat < 256 ^ 4 := x.toNat_lt
  have value : ofLE (u32 x) = x.toNat := ofLE_toLE 4 x.toNat word
  simp [uint32, Msg.pop_uint32, if_pos room, stands, value]

theorem reads_int32 (x : Int32) : int32.Reads (u32 x.toUInt32) x :=
  reads_map UInt32.toInt32 (reads_uint32 x.toUInt32)

theorem reads_str {s : Bytes} (noZero : 0 ∉ s) : str.Reads (s ++ [0]) s := by
  intro msg rest holds
  have behind := holds.behind
  have text := holds.front.front.2
  obtain ⟨room, stands⟩ := holds.front
  rw [List.length_append, List.length_singleton] at room stands behind
  have last : msg.fmt (msg.off + s.length) = 0 := by
    rw [Memory.load_add] at stands
    have tail := (List.append_inj stands (Memory.load_length ..)).2
    rw [Memory.load_one] at tail
    exact List.singleton_inj.mp tail
  have before : ∀ k < s.length, msg.fmt (msg.off + k) ≠ 0 := by
    intro k inside zero
    apply noZero
    rw [← text, ← zero]
    exact List.mem_map.mpr ⟨k, List.mem_range.mpr inside, rfl⟩
  have found : (List.range (msg.size - msg.off)).find?
      (fun n => decide (msg.fmt (msg.off + n) = 0)) = some s.length := by
    apply List.find?_range_eq_some.mpr
    refine ⟨decide_eq_true last, List.mem_range.mpr (by omega), ?_⟩
    intro k inside
    simpa using before k inside
  refine ⟨{ msg with off := msg.off + s.length + 1 }, ?_, behind⟩
  simp [str, Msg.pop_str, found, text]

end Pop

theorem Msg.pop_buf_reads {msg : Msg} {x : UInt32} {bs : Bytes} (count : bs.length = x.toNat)
    (holds : msg.Holds (u32 x ++ bs)) : msg.pop_buf.1 = some bs := by
  have behind := holds.behind
  obtain ⟨room, stands⟩ := behind
  obtain ⟨_, word⟩ := holds.front
  rw [u32_length] at room stands word
  have bits : x.toNat < 256 ^ 4 := x.toNat_lt
  have value : ofLE (u32 x) = x.toNat := ofLE_toLE 4 x.toNat bits
  have enough : msg.CheckSize 4 := by simp only [Msg.CheckSize] at room ⊢; omega
  rw [count] at room stands
  simp only [Msg.pop_buf, Msg.pop_uint32, if_pos enough, word, value, if_pos room, stands]

end Soapy.Rtl
