import Soapy.Rtl.MsgWire

/-! # Pushes and pops of one message

Values of four kinds are pushed one behind the other into a message that grows as it
needs, and popped again in the same order. Sizes are 64 bits wide.
-/

namespace Soapy.Rtl

open Lib

namespace Msg

/-- `rtlsdr_rpc_msg_init` with any data size. -/
def init_sized (data_size : UInt64) (fmt : Memory) : Msg :=
  let data_size := if data_size = 0 then 64 else data_size
  ⟨fmt_size, (fmt_size + data_size.toNat) % 2 ^ 64, fmt⟩

def push_buf (msg : Msg) (buf : Bytes) (fresh : Memory) : Msg :=
  let msg := msg.check_size_or_realloc (4 + buf.length) fresh
  (msg.push_mem_safe (u32 (UInt32.ofNat buf.length))).push_mem_safe buf

/-- The copy into a new allocation. -/
def growthEvents (msg : Msg) (size : Nat) : List Event :=
  if msg.CheckSize size then [] else [.stored msg.off ((msg.off + size + 256) / 256 * 256)]

end Msg

/-- A value of the kinds a message carries. -/
inductive Item where
  | int32 (x : Int32)
  | uint32 (x : UInt32)
  | str (s : Bytes)
  | buf (bs : Bytes)

inductive Kind where
  | int32 | uint32 | str | buf

namespace Item

def kind : Item → Kind
  | .int32 _ => .int32
  | .uint32 _ => .uint32
  | .str _ => .str
  | .buf _ => .buf

/-- A text of C has no zero byte, and the size of a buffer goes as 32 bits. -/
def Admitted : Item → Prop
  | .str s => 0 ∉ s
  | .buf bs => bs.length < 2 ^ 32
  | _ => True

def bytes : Item → Bytes
  | .int32 x => u32 x.toUInt32
  | .uint32 x => u32 x
  | .str s => s ++ [0]
  | .buf bs => u32 (UInt32.ofNat bs.length) ++ bs

def push (msg : Msg) (fresh : Memory) : Item → Msg
  | .int32 x => msg.push_uint32 x.toUInt32 fresh
  | .uint32 x => msg.push_uint32 x fresh
  | .str s => msg.push_str s fresh
  | .buf bs => msg.push_buf bs fresh

/-- What a push stores into the buffer it ends with. -/
def events (msg : Msg) (fresh : Memory) : Item → List Event
  | .buf bs =>
    let grown := msg.check_size_or_realloc (4 + bs.length) fresh
    msg.growthEvents (4 + bs.length) ++
      [.stored (grown.off + 4) grown.size, .stored (grown.off + 4 + bs.length) grown.size]
  | item =>
    let grown := msg.check_size_or_realloc item.bytes.length fresh
    msg.growthEvents item.bytes.length ++ [.stored (grown.off + item.bytes.length) grown.size]

end Item

namespace Pop

def buf : Pop Bytes := fun msg =>
  match msg.pop_buf with
  | (none, _) => none
  | (some bs, msg) => some (bs, msg)

end Pop

def Kind.pop : Kind → Pop Item
  | .int32 => .int32 <$> Pop.int32
  | .uint32 => .uint32 <$> Pop.uint32
  | .str => .str <$> Pop.str
  | .buf => .buf <$> Pop.buf

/-- The pushes one after the other, each with what a new allocation would hold. -/
def pushAll (msg : Msg) : List (Item × Memory) → Msg
  | [] => msg
  | (item, fresh) :: rest => pushAll (item.push msg fresh) rest

def pushEvents (msg : Msg) : List (Item × Memory) → List Event
  | [] => []
  | (item, fresh) :: rest => item.events msg fresh ++ pushEvents (item.push msg fresh) rest

def popAll : List Kind → Pop (List Item)
  | [] => pure []
  | kind :: rest => do
    let item ← kind.pop
    let items ← popAll rest
    pure (item :: items)

section Pushes

variable {msg : Msg} {fresh : Memory}

variable (size : Nat)

theorem Msg.check_size_or_realloc_off :
    (msg.check_size_or_realloc size fresh).off = msg.off := by
  unfold Msg.check_size_or_realloc
  split <;> rfl

theorem Msg.check_size_or_realloc_room :
    msg.off + size ≤ (msg.check_size_or_realloc size fresh).size := by
  unfold Msg.check_size_or_realloc
  split
  · next enough => exact enough
  · simp only
    omega

theorem Msg.growthEvents_confined : Confined (msg.growthEvents size) := by
  unfold Msg.growthEvents
  split
  · exact confined_nil
  · simp only [confined_cons, stored_confined, confined_nil, and_true]
    omega

theorem Msg.push_buf_eq (bs : Bytes) :
    msg.push_buf bs fresh = msg.push_mem (u32 (UInt32.ofNat bs.length) ++ bs) fresh := by
  unfold Msg.push_buf Msg.push_mem Msg.push_mem_safe
  rw [List.length_append, u32_length]
  simp only [Msg.mk.injEq, true_and]
  refine ⟨by omega, ?_⟩
  have joined := Memory.store_append (m := (msg.check_size_or_realloc (4 + bs.length) fresh).fmt)
    (msg.check_size_or_realloc (4 + bs.length) fresh).off (u32 (UInt32.ofNat bs.length)) bs
  rwa [u32_length] at joined

variable (item : Item)

theorem Item.push_eq : item.push msg fresh = msg.push_mem item.bytes fresh := by
  cases item with
  | int32 x => rfl
  | uint32 x => rfl
  | str s => rfl
  | buf bs => exact Msg.push_buf_eq bs

theorem Item.push_room : (item.push msg fresh).off ≤ (item.push msg fresh).size := by
  rw [Item.push_eq, Msg.push_mem_off]
  exact Msg.check_size_or_realloc_room ..

theorem Item.events_confined : Confined (item.events msg fresh) := by
  have room := @Msg.check_size_or_realloc_room msg fresh
  cases item with
  | buf bs =>
    have enough := room (4 + bs.length)
    simp only [Item.events, confined_append, Msg.growthEvents_confined, confined_cons,
      stored_confined, confined_nil, Msg.check_size_or_realloc_off, true_and, and_true]
    omega
  | int32 x | uint32 x | str s =>
    simpa [Item.events, Msg.growthEvents_confined, Msg.check_size_or_realloc_off] using room _

variable (pushes : List (Item × Memory))

theorem pushEvents_confined (msg : Msg) : Confined (pushEvents msg pushes) := by
  induction pushes generalizing msg with
  | nil => exact confined_nil
  | cons push rest ih => exact confined_append.mpr ⟨Item.events_confined _, ih _⟩

theorem pushAll_sent (msg : Msg) :
    (pushAll msg pushes).sent = msg.sent ++ pushes.flatMap (fun push => push.1.bytes) := by
  induction pushes generalizing msg with
  | nil => simp [pushAll]
  | cons push rest ih =>
    simp [pushAll, ih, Item.push_eq, Msg.push_mem_sent]

theorem pushAll_room (msg : Msg) (room : pushes = [] → msg.off ≤ msg.size) :
    (pushAll msg pushes).off ≤ (pushAll msg pushes).size := by
  induction pushes generalizing msg with
  | nil => exact room rfl
  | cons push rest ih =>
    apply ih
    intro _
    exact Item.push_room push.1

end Pushes

variable {bs : Bytes}

theorem Pop.reads_buf (small : bs.length < 2 ^ 32) :
    buf.Reads (u32 (UInt32.ofNat bs.length) ++ bs) bs := by
  intro msg rest holds
  have count : bs.length = (UInt32.ofNat bs.length).toNat := (UInt32.toNat_ofNat_of_lt' small).symm
  have behind := holds.behind
  have popped := Msg.pop_buf_reads count holds.front
  have word := holds.front.front.2
  rw [List.length_append] at behind
  rw [u32_length] at word behind
  have value : ofLE (msg.fmt.load msg.off 4) = bs.length := by
    rw [word, u32, ← count]
    exact ofLE_toLE 4 _ small
  rcases msg.pop_buf_cases with ⟨_, _, moved⟩ | ⟨_, failed, _⟩
  · refine ⟨_, ?_, behind⟩
    unfold buf
    rw [value, Nat.add_assoc] at moved
    rw [← moved]
    revert popped
    cases msg.pop_buf with
    | mk found next =>
      rintro rfl
      rfl
  · rw [failed] at popped
    cases popped

theorem Kind.reads {item : Item} (admitted : item.Admitted) :
    item.kind.pop.Reads item.bytes item := by
  cases item with
  | int32 x => exact Pop.reads_map Item.int32 (Pop.reads_int32 x)
  | uint32 x => exact Pop.reads_map Item.uint32 (Pop.reads_uint32 x)
  | str s => exact Pop.reads_map Item.str (Pop.reads_str admitted)
  | buf bs => exact Pop.reads_map Item.buf (Pop.reads_buf admitted)

variable {msg msg' : Msg}

theorem Msg.pop_buf_some (popped : msg.pop_buf = (some bs, msg')) :
    msg' = { msg with off := msg.off + (4 + bs.length) } := by
  unfold Msg.pop_buf at popped
  split at popped
  · cases popped
  · next first =>
      obtain ⟨_, rfl, rfl⟩ := Msg.pop_uint32_some first
      simp only at popped
      split at popped
      · cases popped
        rw [Memory.load_length, Nat.add_assoc]
      · cases popped

theorem Pop.uint32_some {x : UInt32} (popped : uint32 msg = some (x, msg')) :
    msg' = { msg with off := msg.off + 4 } := by
  obtain ⟨_, found, same⟩ := Option.map_eq_some_iff.mp popped
  cases same
  exact (Msg.pop_uint32_some found).2.2

theorem Pop.str_some {s : Bytes} (popped : str msg = some (s, msg')) :
    msg' = { msg with off := msg.off + (s.length + 1) } := by
  obtain ⟨n, _, same⟩ := Option.map_eq_some_iff.mp popped
  cases same
  rw [Memory.load_length, Nat.add_assoc]

theorem Pop.buf_some (popped : buf msg = some (bs, msg')) :
    msg' = { msg with off := msg.off + (4 + bs.length) } := by
  unfold buf at popped
  split at popped
  · cases popped
  · next found =>
      cases popped
      exact Msg.pop_buf_some found

theorem Pop.map_some {α β : Type} {f : α → β} {pop : Pop α} {b : β}
    (popped : (f <$> pop) msg = some (b, msg')) : ∃ a, pop msg = some (a, msg') ∧ b = f a := by
  obtain ⟨⟨a, _⟩, found, same⟩ := Option.bind_eq_some_iff.mp popped
  cases same
  exact ⟨a, found, rfl⟩

theorem Kind.pop_moves {kind : Kind} {item : Item} (popped : kind.pop msg = some (item, msg')) :
    msg' = { msg with off := msg.off + item.bytes.length } := by
  cases kind with
  | int32 =>
    obtain ⟨_, signed, rfl⟩ := Pop.map_some popped
    obtain ⟨_, found, rfl⟩ := Pop.map_some signed
    rw [Pop.uint32_some found, Item.bytes, u32_length]
  | uint32 =>
    obtain ⟨_, found, rfl⟩ := Pop.map_some popped
    rw [Pop.uint32_some found, Item.bytes, u32_length]
  | str =>
    obtain ⟨_, found, rfl⟩ := Pop.map_some popped
    rw [Pop.str_some found, Item.bytes, List.length_append, List.length_singleton]
  | buf =>
    obtain ⟨_, found, rfl⟩ := Pop.map_some popped
    rw [Pop.buf_some found, Item.bytes, List.length_append, u32_length]

theorem popAll_reads {items : List Item} (admitted : ∀ item ∈ items, item.Admitted) :
    (popAll (items.map Item.kind)).Reads (items.flatMap Item.bytes) items := by
  induction items with
  | nil => exact Pop.reads_pure []
  | cons item rest ih =>
    have first := Kind.reads (admitted item List.mem_cons_self)
    have others := ih fun other among => admitted other (List.mem_cons_of_mem item among)
    have all : (popAll ((item :: rest).map Item.kind)).Reads
        (item.bytes ++ (rest.flatMap Item.bytes ++ [])) (item :: rest) :=
      Pop.reads_bind first (Pop.reads_bind others (Pop.reads_pure (item :: rest)))
    rwa [List.append_nil] at all

theorem popAll_moves {kinds : List Kind} {items : List Item}
    (popped : popAll kinds msg = some (items, msg')) :
    msg' = { msg with off := msg.off + (items.flatMap Item.bytes).length } := by
  induction kinds generalizing msg items with
  | nil =>
    cases popped
    rfl
  | cons kind rest ih =>
    obtain ⟨⟨item, _⟩, first, popped⟩ := Option.bind_eq_some_iff.mp popped
    obtain ⟨⟨others, _⟩, found, same⟩ := Option.bind_eq_some_iff.mp popped
    cases same
    rw [ih found, Kind.pop_moves first, List.flatMap_cons, List.length_append, Nat.add_assoc]

/-- No push stores behind the end of the buffer, and after a reset the pops of the same kinds return
    the values, in order, and leave the message as the last push left it. -/
theorem codec_round_trip (data_size : UInt64) (fmt : Memory) (pushes : List (Item × Memory))
    (admitted : ∀ push ∈ pushes, push.1.Admitted) :
    let start := Msg.init_sized data_size fmt
    let msg := pushAll start pushes
    Confined (pushEvents start pushes) ∧
      popAll (pushes.map fun push => push.1.kind) msg.reset = some (pushes.map Prod.fst, msg) := by
  intro start msg
  refine ⟨pushEvents_confined pushes start, ?_⟩
  cases pushes with
  | nil => rfl
  | cons push rest =>
    let items := (push :: rest).map Prod.fst
    have room : msg.off ≤ msg.size := pushAll_room (push :: rest) start fun none => by cases none
    have sent : msg.sent = start.sent ++ items.flatMap Item.bytes := by
      rw [List.flatMap_map]
      exact pushAll_sent (push :: rest) start
    have off : msg.off = fmt_size + (items.flatMap Item.bytes).length := by
      have lengths := congrArg List.length sent
      rwa [List.length_append, Msg.sent_length, Msg.sent_length] at lengths
    have holds : msg.reset.Holds (items.flatMap Item.bytes ++ []) := by
      rw [List.append_nil]
      refine ⟨by simp only [Msg.reset]; omega, ?_⟩
      rw [Msg.sent, off, Memory.load_add] at sent
      exact List.append_inj_right sent (by rw [Memory.load_length, Msg.sent_length]; rfl)
    have reads : (popAll (items.map Item.kind)).Reads (items.flatMap Item.bytes) items := by
      apply popAll_reads
      intro item among
      obtain ⟨push, here, rfl⟩ := List.mem_map.mp among
      exact admitted push here
    obtain ⟨msg', popped, _⟩ := reads msg.reset [] holds
    have same : msg' = msg := by
      rw [popAll_moves popped]
      change { msg with off := fmt_size + (items.flatMap Item.bytes).length } = msg
      rw [← off]
    rw [same, List.map_map] at popped
    exact popped

theorem codec_round_trip_grown :
    let start := Msg.init_sized 3 0
    let pushes : List (Item × Memory) :=
      [(.str [104, 105], 1), (.int32 (-5), 0), (.buf [7, 0, 9], 0), (.uint32 4294967295, 0)]
    let msg := pushAll start pushes
    Confined (pushEvents start pushes) ∧
      popAll [.str, .int32, .buf, .uint32] msg.reset = some (pushes.map Prod.fst, msg) :=
  codec_round_trip 3 0 [(.str [104, 105], 1), (.int32 (-5), 0), (.buf [7, 0, 9], 0), (.uint32 4294967295, 0)]
    (by simp [Item.Admitted])

end Soapy.Rtl
