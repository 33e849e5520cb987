import Soapy.Lib.Memory
import Soapy.Lib.Runs

/-! # Register writes of the R820T

The driver keeps a shadow of the registers from 5 on, and a table of bits that override what is
written. A write of several registers is cut into messages, each of which carries the number of
its first register.
-/

namespace Soapy.Rtl.R82xx

open Lib

def REG_SHADOW_START : Nat := 5

def NUM_REGS : Nat := 32

structure Message where
  reg : Nat
  bytes : Bytes

def Message.pairs (msg : Message) : List (Nat × UInt8) :=
  msg.bytes.mapIdx fun k b => (msg.reg + k, b)

/-- `struct r82xx_priv`, as far as register writes read it. Behind the `NUM_REGS` entries of each
    table stands other data. `messages` were handed to the bus, and `touched` are the entries that
    were looked at. -/
structure Priv where
  regs : Memory
  override_data : Memory
  override_mask : Memory
  max_i2c_msg_len : Nat
  messages : List Message
  touched : List Nat

/-- What a transfer gives back if it is not the length that was asked for. -/
abbrev Bus := Nat → Option Int

def Priv.shadow_store (p : Priv) (reg : Nat) (val : Bytes) : Priv :=
  let r : Int := reg - REG_SHADOW_START
  let len : Int := if r < 0 then val.length + r else val.length
  let r := max r 0
  if len ≤ 0 then p
  else
    let len := if NUM_REGS - r < len then NUM_REGS - r else len
    { p with regs := p.regs.store r.toNat (val.take len.toNat) }

/-- The byte of the buffer for an entry of the tables. -/
def Priv.override (p : Priv) (regIdx : Nat) (b : UInt8) : UInt8 :=
  if p.override_mask regIdx ≠ 0 then
    (b &&& ~~~ p.override_mask regIdx) ||| (p.override_mask regIdx &&& p.override_data regIdx)
  else b

/-- The loop of `r82xx_write_arr` over the bytes from `pos` on. `reg` moves on with `pos`. -/
def write_chunks (usb : Bus) : Nat → Priv → (reg pos : Nat) → Bytes → Option (Int × Priv)
  | 0, _, _, _, _ => none
  | fuel + 1, p, reg, pos, val =>
    let size :=
      if p.max_i2c_msg_len - 1 < val.length then p.max_i2c_msg_len - 1 else val.length
    let regIdx := fun k => reg - REG_SHADOW_START + (pos + k)
    let bytes := (val.take size).mapIdx fun k b => p.override (regIdx k) b
    let sent := { p with
      messages := p.messages ++ [⟨reg, bytes⟩]
      touched := p.touched ++ (List.range size).map regIdx }
    match usb p.messages.length with
    | some rc => some (if rc < 0 then rc else -1, sent)
    | none =>
      if 0 < val.length - size then
        write_chunks usb fuel sent (reg + size) (pos + size) (val.drop size)
      else some (0, sent)

/-- Each message but the last takes a byte at least. -/
def write_arr (usb : Bus) (p : Priv) (reg : Nat) (val : Bytes) : Option (Int × Priv) :=
  write_chunks usb (val.length + 1) (p.shadow_store reg val) reg 0 val

def read_cache_reg (p : Priv) (reg : Nat) : Option UInt8 :=
  if REG_SHADOW_START ≤ reg ∧ reg - REG_SHADOW_START < NUM_REGS then
    some (p.regs (reg - REG_SHADOW_START))
  else none

/-- Also `r82xx_write_reg_mask_ext`. -/
def write_reg_mask (usb : Bus) (p : Priv) (reg val bit_mask : UInt8) : Option (Int × Priv) :=
  match read_cache_reg p reg.toNat with
  | none => some (-1, p)
  | some rc => write_arr usb p reg.toNat [(rc &&& ~~~ bit_mask) ||| (val &&& bit_mask)]

/-- The tables of `r82xx_set_i2c_override`: data above a byte takes the bits out. -/
def Priv.set_override (p : Priv) (i : Nat) (data mask : UInt32) : Priv :=
  let reg_mask := mask.toUInt8
  let reg_val := data.toUInt8
  if data &&& ~~~ 0xff ≠ 0 then
    { p with
      override_mask := Function.update p.override_mask i (p.override_mask i &&& ~~~ reg_mask)
      override_data := Function.update p.override_data i (p.override_data i &&& ~~~ reg_mask) }
  else
    { p with
      override_mask := Function.update p.override_mask i (p.override_mask i ||| reg_mask)
      override_data := Function.update p.override_data i
        ((p.override_data i &&& ~~~ reg_mask) ||| (reg_mask &&& reg_val)) }

def set_i2c_override (usb : Bus) (p : Priv) (i2c_register data mask : UInt32) :
    Option (Int × Priv) :=
  let reg := i2c_register.toUInt8
  if REG_SHADOW_START ≤ reg.toNat ∧ reg.toNat < REG_SHADOW_START + NUM_REGS then
    write_reg_mask usb (p.set_override (reg.toNat - REG_SHADOW_START) data mask) reg 0 0
  else some (-1, p)

/-- The first byte of the message that carries byte `n`. -/
def Priv.first (p : Priv) (n : Nat) : Nat :=
  n / (p.max_i2c_msg_len - 1) * (p.max_i2c_msg_len - 1)

/-- How many messages a write of `len` bytes takes. -/
def Priv.messagesFor (p : Priv) (len : Nat) : Nat := (len - 1) / (p.max_i2c_msg_len - 1) + 1

/-- All transfers of a write of `len` bytes succeed. -/
def Succeeds (usb : Bus) (p : Priv) (len : Nat) : Prop :=
  ∀ n < p.messagesFor len, usb (p.messages.length + n) = none

/-- The entry of the tables that is used for byte `n`. -/
def Priv.entry (p : Priv) (reg n : Nat) : Nat := reg - REG_SHADOW_START + (n + p.first n)

/-- A message gets through, and the rest is as it was. -/
def Priv.after (p : Priv) (messages : List Message) (touched : List Nat) : Priv :=
  { p with messages := p.messages ++ messages, touched := p.touched ++ touched }

theorem Priv.after_after (p : Priv) (messages more : List Message) (touched used : List Nat) :
    (p.after messages touched).after more used = p.after (messages ++ more) (touched ++ used) := by
  simp [Priv.after]

theorem Priv.first_below {p : Priv} {n : Nat} (below : n < p.max_i2c_msg_len - 1) :
    p.first n = 0 := by
  rw [Priv.first, Nat.div_eq_of_lt below, Nat.zero_mul]

theorem Priv.first_add {p : Priv} (limit : 2 ≤ p.max_i2c_msg_len) (n : Nat) :
    p.first (n + (p.max_i2c_msg_len - 1)) = p.first n + (p.max_i2c_msg_len - 1) := by
  rw [Priv.first, Nat.add_div_right n (by omega), Nat.succ_mul]
  rfl

theorem Priv.entry_add {p : Priv} (limit : 2 ≤ p.max_i2c_msg_len) {reg : Nat}
    (shadowed : REG_SHADOW_START ≤ reg) (n pos : Nat) :
    p.entry (reg + (p.max_i2c_msg_len - 1)) n + (pos + (p.max_i2c_msg_len - 1)) =
      p.entry reg (n + (p.max_i2c_msg_len - 1)) + pos := by
  rw [Priv.entry, Priv.entry, p.first_add limit]
  omega

theorem Priv.messagesFor_one {p : Priv} {len : Nat} (fits : len ≤ p.max_i2c_msg_len - 1)
    (limit : 2 ≤ p.max_i2c_msg_len) : p.messagesFor len = 1 := by
  rw [Priv.messagesFor, Nat.div_eq_of_lt (by omega)]

theorem Priv.messagesFor_more {p : Priv} {len : Nat} (limit : 2 ≤ p.max_i2c_msg_len)
    (more : p.max_i2c_msg_len - 1 < len) :
    p.messagesFor len = p.messagesFor (len - (p.max_i2c_msg_len - 1)) + 1 := by
  have split : len - 1 = len - (p.max_i2c_msg_len - 1) - 1 + (p.max_i2c_msg_len - 1) := by omega
  rw [Priv.messagesFor, split, Nat.add_div_right _ (by omega)]
  rfl

theorem succeeds_one {usb : Bus} {p : Priv} {len : Nat} (limit : 2 ≤ p.max_i2c_msg_len)
    (fits : len ≤ p.max_i2c_msg_len - 1) :
    Succeeds usb p len ↔ usb p.messages.length = none := by
  rw [Succeeds, p.messagesFor_one fits limit]
  simp

theorem succeeds_more {usb : Bus} {p : Priv} {len : Nat} (limit : 2 ≤ p.max_i2c_msg_len)
    (more : p.max_i2c_msg_len - 1 < len) (msg : Message) (touched : List Nat) :
    Succeeds usb p len ↔ usb p.messages.length = none ∧
      Succeeds usb (p.after [msg] touched) (len - (p.max_i2c_msg_len - 1)) := by
  have count : (p.after [msg] touched).messages.length = p.messages.length + 1 :=
    List.length_append
  rw [Succeeds, p.messagesFor_more limit more, Nat.forall_lt_succ_left, Nat.add_zero, Succeeds, count]
  simp only [Nat.add_assoc, Nat.add_comm 1]
  rfl

theorem message_pairs (p : Priv) (reg pos : Nat) (val : Bytes) (short : val.length ≤ p.max_i2c_msg_len - 1) :
    Message.pairs ⟨reg, val.mapIdx fun k b => p.override (reg - REG_SHADOW_START + (pos + k)) b⟩ =
      val.mapIdx fun n b => (reg + n, p.override (p.entry reg n + pos) b) := by
  rw [Message.pairs, List.mapIdx_mapIdx]
  apply List.mapIdx_eq_mapIdx_iff.mpr
  intro n inside
  have here : p.entry reg n + pos = reg - REG_SHADOW_START + (pos + n) := by
    rw [Priv.entry, p.first_below (lt_of_lt_of_le inside short)]
    omega
  rw [here]
  rfl

theorem failed_ne (rc : Int) : (if rc < 0 then rc else -1) ≠ 0 := by
  split
  · omega
  · decide

theorem write_chunks_succ (usb : Bus) (fuel : Nat) (p : Priv) (reg pos : Nat) (val : Bytes) :
    let size := min (p.max_i2c_msg_len - 1) val.length
    let sent := p.after
      [⟨reg, (val.take size).mapIdx fun k b => p.override (reg - REG_SHADOW_START + (pos + k)) b⟩]
      ((List.range size).map fun k => reg - REG_SHADOW_START + (pos + k))
    write_chunks usb (fuel + 1) p reg pos val =
      match usb p.messages.length with
      | some rc => some (if rc < 0 then rc else -1, sent)
      | none =>
        if size < val.length then
          write_chunks usb fuel sent (reg + size) (pos + size) (val.drop size)
        else some (0, sent) := by
  have size : (if p.max_i2c_msg_len - 1 < val.length then p.max_i2c_msg_len - 1 else val.length) =
      min (p.max_i2c_msg_len - 1) val.length := by
    split <;> omega
  simp only [write_chunks, size, Nat.sub_pos_iff_lt]
  rfl

theorem write_chunks_spec (usb : Bus) {fuel : Nat} {p : Priv} (limit : 2 ≤ p.max_i2c_msg_len)
    {val : Bytes} (enough : val.length < fuel) {reg : Nat} (shadowed : REG_SHADOW_START ≤ reg)
    (pos : Nat) :
    ∃ rc messages touched,
      write_chunks usb fuel p reg pos val = some (rc, p.after messages touched) ∧
        (rc = 0 ↔ Succeeds usb p val.length) ∧
        (rc = 0 → messages.flatMap Message.pairs = val.mapIdx (fun n b =>
            (reg + n, p.override (p.entry reg n + pos) b)) ∧
          touched = (List.range val.length).map fun n => p.entry reg n + pos) := by
  induction fuel generalizing p val reg pos with
  | zero => omega
  | succ fuel ih =>
    rw [write_chunks_succ]
    by_cases fits : val.length ≤ p.max_i2c_msg_len - 1
    · -- one message is enough
      rw [Nat.min_eq_right fits, List.take_length, succeeds_one limit fits]
      cases usb p.messages.length with
      | some rc => exact ⟨_, _, _, rfl, by simp [failed_ne], fun zero => absurd zero (failed_ne rc)⟩
      | none =>
        rw [if_neg (lt_irrefl _)]
        refine ⟨0, _, _, rfl, by simp, fun _ => ⟨?_, ?_⟩⟩
        · rw [List.flatMap_singleton]
          exact message_pairs p reg pos val fits
        · apply List.map_congr_left
          intro n inside
          rw [Priv.entry, p.first_below (lt_of_lt_of_le (List.mem_range.mp inside) fits)]
          omega
    · have more : p.max_i2c_msg_len - 1 < val.length := Nat.lt_of_not_le fits
      rw [Nat.min_eq_left (le_of_lt more)]
      set c := p.max_i2c_msg_len - 1 with limits
      set msg : Message := ⟨reg, (val.take c).mapIdx fun k b =>
        p.override (reg - REG_SHADOW_START + (pos + k)) b⟩ with first
      set used := (List.range c).map fun k => reg - REG_SHADOW_START + (pos + k) with entries
      rw [succeeds_more limit more msg used]
      cases usb p.messages.length with
      | some rc => exact ⟨_, _, _, rfl, by simp [failed_ne], fun zero => absurd zero (failed_ne rc)⟩
      | none =>
        have left : (val.drop c).length = val.length - c := List.length_drop
        obtain ⟨rc, messages, touched, ran, succeeds, spec⟩ :=
          @ih (p.after [msg] used) limit (val.drop c) (by omega) (reg + c) (by omega) (pos + c)
        refine ⟨rc, msg :: messages, used ++ touched, ?_, ?_, ?_⟩
        · simp [if_pos more, ran, Priv.after_after]
        · rw [succeeds, left]
          simp
          rfl
        · intro zero
          obtain ⟨pairs, rest⟩ := spec zero
          have taken : (val.take c).length = c := List.length_take_of_le (le_of_lt more)
          have head := message_pairs p reg pos (val.take c) (le_of_eq taken)
          constructor
          · rw [List.flatMap_cons, pairs, head]
            nth_rewrite 3 [← List.take_append_drop c val]
            rw [List.mapIdx_append, taken]
            congr 1
            apply List.mapIdx_eq_mapIdx_iff.mpr
            intro n inside
            have entry : (p.after [msg] used).entry (reg + c) n + (pos + c) =
              p.entry reg (n + c) + pos := p.entry_add limit shadowed n pos
            rw [entry, Nat.add_assoc reg c n, Nat.add_comm c n]
            rfl
          · have whole : val.length = c + (val.length - c) := by omega
            rw [rest, left, whole, List.range_add, List.map_append, List.map_map,
              Nat.add_sub_cancel_left]
            congr 1
            · apply List.map_congr_left
              intro n inside
              rw [Priv.entry, p.first_below (List.mem_range.mp inside)]
              omega
            · apply List.map_congr_left
              intro n _
              rw [Function.comp_apply, Nat.add_comm c n]
              exact p.entry_add limit shadowed n pos

def Priv.stored (p : Priv) (reg : Nat) (val : Bytes) : Priv :=
  { p with regs := p.regs.store (reg - REG_SHADOW_START) val }

theorem Priv.shadow_store_eq (p : Priv) {reg : Nat} {val : Bytes}
    (shadowed : REG_SHADOW_START ≤ reg) (inside : reg + val.length ≤ REG_SHADOW_START + NUM_REGS) :
    p.shadow_store reg val = p.stored reg val := by
  obtain ⟨r, rfl⟩ := Nat.exists_eq_add_of_le shadowed
  have index : ((REG_SHADOW_START + r : Nat) : Int) - REG_SHADOW_START = r := by omega
  have room : ¬ ((NUM_REGS : Int) - r < val.length) := by omega
  have index' : max (r : Int) 0 = r := by omega
  have start : REG_SHADOW_START + r - REG_SHADOW_START = r := by omega
  have known : ¬ ((r : Int) < 0) := by omega
  simp only [Priv.shadow_store, Priv.stored, index, index', room, known, if_false, start,
    Int.toNat_natCast, List.take_length]
  cases val with
  | nil =>
    have same : p.regs.store r [] = p.regs := funext fun i => Memory.store_outside (by
      rw [List.length_nil]
      omega)
    rw [if_pos (by simp), same]
  | cons b rest => rw [if_neg (by simp)]

theorem write_arr_spec (usb : Bus) {p : Priv} (limit : 2 ≤ p.max_i2c_msg_len) {reg : Nat}
    {val : Bytes} (shadowed : REG_SHADOW_START ≤ reg)
    (inside : reg + val.length ≤ REG_SHADOW_START + NUM_REGS) :
    ∃ rc messages touched,
      write_arr usb p reg val = some (rc, (p.stored reg val).after messages touched) ∧
        (rc = 0 ↔ Succeeds usb p val.length) ∧
        (rc = 0 → messages.flatMap Message.pairs = val.mapIdx (fun n b =>
            (reg + n, p.override (p.entry reg n) b)) ∧
          touched = (List.range val.length).map (p.entry reg)) := by
  rw [write_arr, p.shadow_store_eq shadowed inside]
  exact write_chunks_spec usb (p := p.stored reg val) limit (Nat.lt_succ_self _) shadowed 0

theorem Priv.stored_regs (p : Priv) {reg : Nat} (shadowed : REG_SHADOW_START ≤ reg) {val : Bytes}
    {n : Nat} (inside : n < val.length) :
    (p.stored reg val).regs (reg + n - REG_SHADOW_START) = val[n] := by
  rw [Nat.sub_add_comm shadowed]
  exact Memory.store_inside p.regs _ inside

theorem Priv.stored_regs_other (p : Priv) {reg r : Nat} {val : Bytes}
    (shadowed : REG_SHADOW_START ≤ reg) (known : REG_SHADOW_START ≤ r)
    (outside : r < reg ∨ reg + val.length ≤ r) :
    (p.stored reg val).regs (r - REG_SHADOW_START) = p.regs (r - REG_SHADOW_START) :=
  Memory.store_outside (by omega)

def replaced (mask data b : UInt8) : UInt8 := (b &&& ~~~ mask) ||| (data &&& mask)

/-- A byte for the register `r`, with its own override applied. -/
def Priv.overridden (p : Priv) (r : Nat) (b : UInt8) : UInt8 :=
  replaced (p.override_mask (r - REG_SHADOW_START)) (p.override_data (r - REG_SHADOW_START)) b

theorem Priv.override_eq (p : Priv) (i : Nat) (b : UInt8) :
    p.override i b = replaced (p.override_mask i) (p.override_data i) b := by
  unfold Priv.override replaced
  split
  · rw [UInt8.and_comm (p.override_mask i)]
  · next none =>
      rw [not_not.mp none]
      simp

/-- From the messages `before` on, each register was sent its byte once, no entry outside of the
    tables was looked at, and the shadow has the bytes without the override. -/
structure WrittenRight (p p' : Priv) (reg : Nat) (val : Bytes) : Prop where
  sent : (p'.messages.drop p.messages.length).flatMap Message.pairs =
    val.mapIdx fun n b => (reg + n, p.overridden (reg + n) b)
  tables : ∀ i ∈ p'.touched.drop p.touched.length, i < NUM_REGS
  shadow : ∀ n (inside : n < val.length), p'.regs (reg + n - REG_SHADOW_START) = val[n]

def Priv.Aligned (p : Priv) (reg : Nat) (val : Bytes) : Prop :=
  ∀ n (inside : n < val.length), p.entry reg n < NUM_REGS ∧
    p.override (p.entry reg n) val[n] = p.override (reg + n - REG_SHADOW_START) val[n]

theorem writtenRight_iff (usb : Bus) {p : Priv} (limit : 2 ≤ p.max_i2c_msg_len) {reg : Nat}
    {val : Bytes} (shadowed : REG_SHADOW_START ≤ reg)
    (inside : reg + val.length ≤ REG_SHADOW_START + NUM_REGS)
    (succeeds : Succeeds usb p val.length) :
    (∃ p', write_arr usb p reg val = some (0, p') ∧ WrittenRight p p' reg val) ↔
      p.Aligned reg val := by
  obtain ⟨rc, messages, touched, ran, zero, spec⟩ := write_arr_spec usb limit shadowed inside
  obtain rfl := zero.mpr succeeds
  obtain ⟨pairs, entries⟩ := spec rfl
  have sent : ((p.stored reg val).after messages touched).messages.drop p.messages.length =
    messages := List.drop_left
  have used : ((p.stored reg val).after messages touched).touched.drop p.touched.length =
    touched := List.drop_left
  constructor
  · rintro ⟨p', same, right⟩
    rw [ran] at same
    cases same
    have equal := right.sent
    have tables := right.tables
    rw [sent, pairs, List.mapIdx_eq_mapIdx_iff] at equal
    rw [used, entries] at tables
    intro n inside
    refine ⟨tables _ (List.mem_map_of_mem (List.mem_range.mpr inside)), ?_⟩
    rw [p.override_eq (reg + n - REG_SHADOW_START)]
    exact congrArg Prod.snd (equal n inside)
  · intro aligned
    refine ⟨_, ran, ?_, ?_, fun n inside => p.stored_regs shadowed inside⟩
    · rw [sent, pairs, List.mapIdx_eq_mapIdx_iff]
      intro n inside
      rw [(aligned n inside).2, p.override_eq]
      rfl
    · rw [used, entries]
      intro i among
      obtain ⟨n, inside, rfl⟩ := List.mem_map.mp among
      exact (aligned n (List.mem_range.mp inside)).1

inductive Call where
  | write_arr (reg : Nat) (val : Bytes)
  | write_reg_mask (reg val bit_mask : UInt8)
  | set_i2c_override (i2c_register data mask : UInt32)

def Call.perform (usb : Bus) (p : Priv) : Call → Option (Int × Priv)
  | .write_arr reg val => R82xx.write_arr usb p reg val
  | .write_reg_mask reg val bit_mask => R82xx.write_reg_mask usb p reg val bit_mask
  | .set_i2c_override i2c_register data mask =>
    R82xx.set_i2c_override usb p i2c_register data mask

/-- The registers of an array are those of the chip. -/
def Call.Within : Call → Prop
  | .write_arr reg val => REG_SHADOW_START ≤ reg ∧ reg + val.length ≤ 32
  | _ => True

abbrev Shadowed (reg : UInt8) : Prop :=
  REG_SHADOW_START ≤ reg.toNat ∧ reg.toNat < REG_SHADOW_START + NUM_REGS

def Call.Stored (p : Priv) : Call → Prop
  | .write_arr reg val => ∀ n (inside : n < val.length), p.regs (reg + n - REG_SHADOW_START) = val[n]
  | .write_reg_mask reg val bit_mask =>
    Shadowed reg →
      (p.regs (reg.toNat - REG_SHADOW_START) &&& ~~~ bit_mask) ||| (val &&& bit_mask) =
        p.regs (reg.toNat - REG_SHADOW_START)
  | .set_i2c_override .. => True

def Call.Succeeds (usb : Bus) (p : Priv) : Call → Prop
  | .write_arr _ val => R82xx.Succeeds usb p val.length
  | _ => usb p.messages.length = none

def Call.KeepsShadow (usb : Bus) (p : Priv) (call : Call) : Prop :=
  ∃ rc p', call.perform usb p = some (rc, p') ∧ (rc ≠ 0 → p'.regs = p.regs)

theorem Priv.stored_same_iff (p : Priv) {reg : Nat} (shadowed : REG_SHADOW_START ≤ reg)
    (val : Bytes) : (p.stored reg val).regs = p.regs ↔
      ∀ n (inside : n < val.length), p.regs (reg + n - REG_SHADOW_START) = val[n] := by
  constructor
  · intro same n inside
    rw [← same]
    exact p.stored_regs shadowed inside
  · intro same
    funext i
    by_cases outside : i < reg - REG_SHADOW_START ∨ reg - REG_SHADOW_START + val.length ≤ i
    · exact Memory.store_outside outside
    · obtain ⟨n, rfl⟩ := Nat.exists_eq_add_of_le (show reg - REG_SHADOW_START ≤ i by omega)
      have inside : n < val.length := by omega
      rw [← Nat.sub_add_comm shadowed, p.stored_regs shadowed inside, same n inside]

theorem succeeds_single (usb : Bus) {p : Priv} (limit : 2 ≤ p.max_i2c_msg_len) (b : UInt8) :
    Succeeds usb p [b].length ↔ usb p.messages.length = none :=
  succeeds_one limit (by rw [List.length_singleton]; omega)

/-- What `r82xx_write_reg_mask` writes. -/
def Priv.merged (p : Priv) (reg val bit_mask : UInt8) : UInt8 :=
  (p.regs (reg.toNat - REG_SHADOW_START) &&& ~~~ bit_mask) ||| (val &&& bit_mask)

theorem Priv.merged_zero (p : Priv) (reg : UInt8) :
    p.merged reg 0 0 = p.regs (reg.toNat - REG_SHADOW_START) := by
  simp [Priv.merged]

theorem write_reg_mask_shadowed (usb : Bus) (p : Priv) {reg : UInt8} (shadowed : Shadowed reg)
    (val bit_mask : UInt8) : write_reg_mask usb p reg val bit_mask =
      write_arr usb p reg.toNat [p.merged reg val bit_mask] := by
  have known : REG_SHADOW_START ≤ reg.toNat ∧ reg.toNat - REG_SHADOW_START < NUM_REGS :=
    ⟨shadowed.1, Nat.sub_lt_left_of_lt_add shadowed.1 shadowed.2⟩
  rw [write_reg_mask, read_cache_reg, if_pos known]
  rfl

theorem write_reg_mask_unknown (usb : Bus) (p : Priv) {reg : UInt8} (unknown : ¬ Shadowed reg)
    (val bit_mask : UInt8) : write_reg_mask usb p reg val bit_mask = some (-1, p) := by
  have outside : ¬ (REG_SHADOW_START ≤ reg.toNat ∧ reg.toNat - REG_SHADOW_START < NUM_REGS) := by
    rintro ⟨low, high⟩
    exact unknown ⟨low, by omega⟩
  rw [write_reg_mask, read_cache_reg, if_neg outside]

theorem Priv.set_override_same (p : Priv) (i : Nat) (data mask : UInt32) :
    (p.set_override i data mask).regs = p.regs ∧
      (p.set_override i data mask).max_i2c_msg_len = p.max_i2c_msg_len ∧
      (p.set_override i data mask).messages = p.messages ∧
      ∀ j ≠ i, ∀ b, (p.set_override i data mask).override j b = p.override j b := by
  unfold Priv.set_override
  simp only
  split
  · refine ⟨rfl, rfl, rfl, fun j other b => ?_⟩
    simp [Priv.override, Function.update_of_ne other]
  · refine ⟨rfl, rfl, rfl, fun j other b => ?_⟩
    simp [Priv.override, Function.update_of_ne other]

theorem set_i2c_override_shadowed (usb : Bus) (p : Priv) {i2c_register : UInt32}
    (shadowed : Shadowed i2c_register.toUInt8) (data mask : UInt32) :
    set_i2c_override usb p i2c_register data mask =
      write_arr usb (p.set_override (i2c_register.toUInt8.toNat - REG_SHADOW_START) data mask)
        i2c_register.toUInt8.toNat
        [p.regs (i2c_register.toUInt8.toNat - REG_SHADOW_START)] := by
  refine (if_pos shadowed).trans ?_
  rw [write_reg_mask_shadowed _ _ shadowed, Priv.merged_zero, (p.set_override_same _ data mask).1]

theorem set_i2c_override_unknown (usb : Bus) (p : Priv) {i2c_register : UInt32}
    (unknown : ¬ Shadowed i2c_register.toUInt8) (data mask : UInt32) :
    set_i2c_override usb p i2c_register data mask = some (-1, p) := if_neg unknown

theorem write_arr_keeps_iff (usb : Bus) {p : Priv} (limit : 2 ≤ p.max_i2c_msg_len) {reg : Nat}
    {val : Bytes} (shadowed : REG_SHADOW_START ≤ reg)
    (inside : reg + val.length ≤ REG_SHADOW_START + NUM_REGS) :
    (∃ rc p', write_arr usb p reg val = some (rc, p') ∧ (rc ≠ 0 → p'.regs = p.regs)) ↔
      Succeeds usb p val.length ∨
        ∀ n (inside : n < val.length), p.regs (reg + n - REG_SHADOW_START) = val[n] := by
  obtain ⟨rc, messages, touched, ran, zero, -⟩ := write_arr_spec usb limit shadowed inside
  rw [ran, ← zero, ← p.stored_same_iff shadowed]
  constructor
  · rintro ⟨_, _, same, keeps⟩
    cases same
    exact or_iff_not_imp_left.mpr keeps
  · intro either
    exact ⟨rc, _, rfl, fun failed => either.resolve_left failed⟩

theorem Call.keepsShadow_iff (usb : Bus) {p : Priv} (limit : 2 ≤ p.max_i2c_msg_len) {call : Call}
    (within : call.Within) : call.KeepsShadow usb p ↔ call.Succeeds usb p ∨ call.Stored p := by
  cases call with
  | write_arr reg val =>
    have inside : reg + val.length ≤ REG_SHADOW_START + NUM_REGS := within.2.trans (by decide)
    exact write_arr_keeps_iff usb limit within.1 inside
  | write_reg_mask reg val bit_mask =>
    simp only [Call.KeepsShadow, Call.perform, Call.Succeeds, Call.Stored]
    by_cases shadowed : Shadowed reg
    · rw [write_reg_mask_shadowed usb p shadowed,
        write_arr_keeps_iff usb limit shadowed.1 (by simpa using Nat.succ_le_of_lt shadowed.2),
        succeeds_single usb limit]
      simp [shadowed, Priv.merged, eq_comm]
    · rw [write_reg_mask_unknown usb p shadowed]
      simp [shadowed]
  | set_i2c_override i2c_register data mask =>
    simp only [Call.KeepsShadow, Call.perform, Call.Stored, or_true, iff_true]
    by_cases shadowed : Shadowed i2c_register.toUInt8
    · rw [set_i2c_override_shadowed usb p shadowed]
      set i := i2c_register.toUInt8.toNat - REG_SHADOW_START
      obtain ⟨regs, length, -, -⟩ := p.set_override_same i data mask
      have keeps := @write_arr_keeps_iff usb (p.set_override i data mask) (length ▸ limit) _
        [p.regs i] shadowed.1 (by simpa using Nat.succ_le_of_lt shadowed.2)
      rw [regs] at keeps
      refine keeps.mpr (Or.inr fun n inside => ?_)
      obtain rfl : n = 0 := Nat.lt_one_iff.mp inside
      rfl
    · rw [set_i2c_override_unknown usb p shadowed]
      exact ⟨-1, p, rfl, fun _ => rfl⟩

def setPairs (m : Memory) (pairs : List (Nat × UInt8)) : Memory :=
  pairs.foldl (fun m pair => Function.update m pair.1 pair.2) m

def chip (start : Memory) (messages : List Message) : Memory :=
  setPairs start (messages.flatMap Message.pairs)

section Pairs

variable (m : Memory) (reg : Nat) (f : Nat → UInt8 → UInt8)

theorem setPairs_concat (val : Bytes) (b : UInt8) :
    setPairs m ((val ++ [b]).mapIdx fun n b => (reg + n, f n b)) =
      Function.update (setPairs m (val.mapIdx fun n b => (reg + n, f n b))) (reg + val.length)
        (f val.length b) := by
  rw [List.mapIdx_concat, setPairs, List.foldl_append]
  rfl

theorem setPairs_outside {val : Bytes} {r : Nat} (outside : r < reg ∨ reg + val.length ≤ r) :
    setPairs m (val.mapIdx fun n b => (reg + n, f n b)) r = m r := by
  induction val using List.reverseRecOn with
  | nil => rfl
  | append_singleton val b ih =>
    rw [List.length_append, List.length_singleton] at outside
    rw [setPairs_concat, Function.update_of_ne (by omega)]
    exact ih (by omega)

theorem setPairs_inside {val : Bytes} {n : Nat} (inside : n < val.length) :
    setPairs m (val.mapIdx fun n b => (reg + n, f n b)) (reg + n) = f n val[n] := by
  induction val using List.reverseRecOn with
  | nil => cases inside
  | append_singleton val b ih =>
    rw [List.length_append, List.length_singleton] at inside
    rw [setPairs_concat]
    by_cases last : n = val.length
    · subst last
      rw [Function.update_self, List.getElem_concat_length rfl]
    · have front : n < val.length := by omega
      rw [Function.update_of_ne (by omega), List.getElem_append_left front]
      exact ih front

end Pairs

theorem chip_append (start : Memory) (messages more : List Message) :
    chip start (messages ++ more) =
      setPairs (chip start messages) (more.flatMap Message.pairs) := by
  rw [chip, List.flatMap_append, setPairs, List.foldl_append]
  rfl

def SyncAt (start : Memory) (p : Priv) (r : Nat) : Prop :=
  chip start p.messages r = p.overridden r (p.regs (r - REG_SHADOW_START))

def InSync (start : Memory) (p : Priv) : Prop :=
  ∀ r, REG_SHADOW_START ≤ r → r < REG_SHADOW_START + NUM_REGS → SyncAt start p r

theorem write_arr_sync {start : Memory} {p p' : Priv} {rc : Int}
    (limit : 2 ≤ p.max_i2c_msg_len) {reg : Nat} {val : Bytes} (shadowed : REG_SHADOW_START ≤ reg)
    (inside : reg + val.length ≤ REG_SHADOW_START + NUM_REGS) (aligned : p.Aligned reg val)
    (ran : write_arr (fun _ => none) p reg val = some (rc, p')) :
    p'.max_i2c_msg_len = p.max_i2c_msg_len ∧ ∀ r, REG_SHADOW_START ≤ r →
      (r < reg ∨ reg + val.length ≤ r → SyncAt start p r) → SyncAt start p' r := by
  obtain ⟨_, messages, touched, ran', zero, spec⟩ :=
    write_arr_spec (fun _ => none) limit shadowed inside
  obtain ⟨pairs, -⟩ := spec (zero.mpr fun _ _ => rfl)
  rw [ran] at ran'
  cases ran'
  refine ⟨rfl, fun r known others => ?_⟩
  change chip start (p.messages ++ messages) r =
    p.overridden r ((p.stored reg val).regs (r - REG_SHADOW_START))
  rw [chip_append, pairs]
  by_cases outside : r < reg ∨ reg + val.length ≤ r
  · rw [setPairs_outside _ _ (fun n b => p.override (p.entry reg n) b) outside,
      p.stored_regs_other shadowed known outside]
    exact others outside
  · obtain ⟨n, rfl⟩ := Nat.exists_eq_add_of_le (show reg ≤ r by omega)
    have here : n < val.length := by omega
    rw [setPairs_inside _ _ (fun n b => p.override (p.entry reg n) b) here,
      p.stored_regs shadowed here, (aligned n here).2, p.override_eq]
    rfl

theorem Priv.aligned_single (p : Priv) {reg : UInt8} (shadowed : Shadowed reg) (b : UInt8) :
    p.Aligned reg.toNat [b] := by
  intro n inside
  obtain rfl : n = 0 := Nat.lt_one_iff.mp inside
  have first : p.first 0 = 0 := by rw [Priv.first, Nat.zero_div, Nat.zero_mul]
  have entry : p.entry reg.toNat 0 = reg.toNat - REG_SHADOW_START := by
    rw [Priv.entry, first]
    rfl
  rw [entry]
  exact ⟨Nat.sub_lt_left_of_lt_add shadowed.1 shadowed.2, rfl⟩

def Call.Step (p : Priv) (call : Call) (p' : Priv) : Prop :=
  ∃ rc, call.perform (fun _ => none) p = some (rc, p')

def Call.Meets (p : Priv) : Call → Prop
  | .write_arr reg val => REG_SHADOW_START ≤ reg ∧ reg + val.length ≤ 32 ∧ p.Aligned reg val
  | _ => True

theorem Call.step_sync {start : Memory} {p p' : Priv} {call : Call}
    (limit : 2 ≤ p.max_i2c_msg_len) (sync : InSync start p) (meets : call.Meets p)
    (step : call.Step p p') : 2 ≤ p'.max_i2c_msg_len ∧ InSync start p' := by
  obtain ⟨rc, ran⟩ := step
  cases call with
  | write_arr reg val =>
    obtain ⟨shadowed, inside, aligned⟩ := meets
    obtain ⟨length, kept⟩ :=
      write_arr_sync limit shadowed (inside.trans (by decide)) aligned ran
    exact ⟨length ▸ limit, fun r known small => kept r known fun _ => sync r known small⟩
  | write_reg_mask reg val bit_mask =>
    simp only [Call.perform] at ran
    by_cases shadowed : Shadowed reg
    · rw [write_reg_mask_shadowed _ _ shadowed] at ran
      obtain ⟨length, kept⟩ := write_arr_sync limit shadowed.1
        (by simpa using Nat.succ_le_of_lt shadowed.2) (p.aligned_single shadowed _) ran
      exact ⟨length ▸ limit, fun r known small => kept r known fun _ => sync r known small⟩
    · rw [write_reg_mask_unknown _ _ shadowed] at ran
      cases ran
      exact ⟨limit, sync⟩
  | set_i2c_override i2c_register data mask =>
    simp only [Call.perform] at ran
    by_cases shadowed : Shadowed i2c_register.toUInt8
    · rw [set_i2c_override_shadowed _ _ shadowed] at ran
      set reg := i2c_register.toUInt8
      obtain ⟨regs, length, messages, others⟩ :=
        p.set_override_same (reg.toNat - REG_SHADOW_START) data mask
      obtain ⟨length', kept⟩ := write_arr_sync (length ▸ limit) shadowed.1
        (by simpa using Nat.succ_le_of_lt shadowed.2) (Priv.aligned_single _ shadowed _) ran
      refine ⟨length' ▸ length ▸ limit, fun r known small => kept r known fun outside => ?_⟩
      have other : r - REG_SHADOW_START ≠ reg.toNat - REG_SHADOW_START := by
        have here := shadowed.1
        rw [List.length_singleton] at outside
        omega
      rw [SyncAt, messages, regs, Priv.overridden, ← Priv.override_eq, others _ other,
        Priv.override_eq]
      exact sync r known small
    · rw [set_i2c_override_unknown _ _ shadowed] at ran
      cases ran
      exact ⟨limit, sync⟩

/-- A device with the limit of `r820t_init` and nothing overridden. -/
def freshPriv : Priv where
  regs := fun _ => 0
  override_data := fun _ => 0
  override_mask := fun _ => 0
  max_i2c_msg_len := 8
  messages := []
  touched := []

def overriddenPriv : Priv :=
  match set_i2c_override (fun _ => none) freshPriv 12 0xff 0xff with
  | some (_, p) => p
  | none => freshPriv

/-- A write without failed transfers is right exactly when the entries it uses are aligned. A call
    keeps the shadow on an error exactly when no transfer fails or nothing in the shadow would
    change. Behind aligned writes the chip has the shadow with the overrides applied. -/
theorem register_writes (usb : Bus) (p : Priv) (limit : 2 ≤ p.max_i2c_msg_len) :
    (∀ reg val, REG_SHADOW_START ≤ reg → reg + val.length ≤ 32 → Succeeds usb p val.length →
      ((∃ p', write_arr usb p reg val = some (0, p') ∧ WrittenRight p p' reg val) ↔
        p.Aligned reg val)) ∧
    (∀ call : Call, call.Within →
      (call.KeepsShadow usb p ↔ call.Succeeds usb p ∨ call.Stored p)) ∧
    ∀ start p', InSync start p → Runs Call.Step (fun p call => call.Meets p) p p' →
      InSync start p' := by
  refine ⟨?_, fun call within => call.keepsShadow_iff usb limit within, ?_⟩
  · intro reg val shadowed inside succeeds
    exact writtenRight_iff usb limit shadowed (inside.trans (by decide)) succeeds
  · intro start p' sync run
    have both : 2 ≤ p'.max_i2c_msg_len ∧ InSync start p' := by
      apply run.keeps _ ⟨limit, sync⟩
      rintro p call p' ⟨limit, sync⟩ meets step
      exact call.step_sync limit sync meets step
    exact both.2

theorem register_writes_fresh :
    (∃ p', write_arr (fun _ => none) freshPriv 5 [1, 2, 3] = some (0, p') ∧
      WrittenRight freshPriv p' 5 [1, 2, 3]) ∧
    (Call.write_reg_mask 7 0x10 0xf0).KeepsShadow (fun _ => none) freshPriv ∧
    InSync (fun _ => 0) overriddenPriv := by
  obtain ⟨writes, keeps, runs⟩ := register_writes (fun _ => none) freshPriv (by decide)
  have step : Call.Step freshPriv (.set_i2c_override 12 0xff 0xff) overriddenPriv := ⟨0, rfl⟩
  have run : Runs Call.Step (fun p call => call.Meets p) freshPriv overriddenPriv :=
    Runs.refl.tail step
  have start : InSync (fun _ => 0) freshPriv := by
    intro r _ _
    exact (by decide : (0 : UInt8) = replaced 0 0 0)
  have aligned : freshPriv.Aligned 5 [1, 2, 3] := by
    intro n inside
    match n, inside with
    | 0, _ => exact ⟨by decide, rfl⟩
    | 1, _ => exact ⟨by decide, rfl⟩
    | 2, _ => exact ⟨by decide, rfl⟩
  exact ⟨(writes 5 [1, 2, 3] (by decide) (by decide) fun _ _ => rfl).mpr aligned,
    (keeps (.write_reg_mask 7 0x10 0xf0) trivial).mpr (Or.inl rfl), runs _ _ start run⟩

/-- The register 12 gets its byte without the override, from the second message on. -/
theorem override_misplaced : ¬ ∀ (usb : Bus) (p : Priv), 2 ≤ p.max_i2c_msg_len →
    ∀ reg val, REG_SHADOW_START ≤ reg → reg + val.length ≤ 32 → Succeeds usb p val.length →
      ∃ p', write_arr usb p reg val = some (0, p') ∧ WrittenRight p p' reg val := by
  intro right
  have written := right (fun _ => none) overriddenPriv (by decide) 5 (List.replicate 14 0)
    (by decide) (by decide) fun _ _ => rfl
  have aligned := (writtenRight_iff (fun _ => none) (by decide) (by decide) (by decide)
    fun _ _ => rfl).mp written
  exact absurd (aligned 7 (by decide)).2 (by decide)

end Soapy.Rtl.R82xx
