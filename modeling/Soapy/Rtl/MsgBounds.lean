import Soapy.Lib.Runs
import Soapy.Rtl.Msg

/-! # What a received message confines

The server receives into its query message, the client into its 32 replies. Each
buffer is used for one message after another, with pops in between. A log keeps what
was stored, accepted and popped.
-/

namespace Soapy.Rtl

open Lib

abbrev QR_COUNT : Nat := 32

inductive Place where
  | query
  | reply (id : Fin QR_COUNT)
deriving DecidableEq

/-- `stored`: bytes below `stop` in a buffer of `room` bytes. `accepted`: a message of this declared
    size. `popped`: its bytes below `stop`. -/
inductive Event where
  | stored (stop room : Nat)
  | accepted (declared : Nat)
  | popped (stop declared : Nat)

def Event.Confined : Event → Prop
  | .stored stop room => stop ≤ room
  | .accepted declared => fmt_size ≤ declared
  | .popped stop declared => stop ≤ declared

/-- A receive into one message: the message, what happened, and the declared size if
    it succeeded. -/
structure Receipt where
  msg : Msg
  events : List Event
  declared : Option Nat

def Receipt.log (receipt : Receipt) : List Event :=
  receipt.events ++ receipt.declared.toList.map .accepted

/-- `recv_all` of `size` bytes to `offset`, of which `wire` arrives before the connection
    ends. A receive of no bytes returns 0, which is an error. -/
def Msg.recv_all (msg : Msg) (offset size : Nat) (wire : Bytes) : Msg :=
  { msg with fmt := msg.fmt.store offset (wire.take size) }

/-- `realloc` copies the bytes up to the offset. -/
def reallocEvents (msg : Msg) (size : Nat) : List Event :=
  if size ≤ msg.size then [] else [.stored msg.off size]

/-- The server's `recv_msg`. The size is unsigned and 64 bits wide when the header of
    four bytes is taken off. -/
def recv_msg (m : Msg) (wire : Bytes) (malloc : Option Memory) : Receipt :=
  if wire.length < 4 then ⟨m, [], none⟩
  else
    let m := m.set_size (ofLE (wire.take 4))
    let size := m.get_size
    match m.realloc size malloc with
    | none => ⟨m, [.stored 4 m.size], none⟩
    | some m' =>
      let left := (size + 2 ^ 64 - 4) % 2 ^ 64
      let rest := wire.drop 4
      ⟨m'.recv_all 4 left rest,
        .stored 4 m.size :: reallocEvents m size ++ [.stored (4 + (rest.take left).length) m'.size],
        if 0 < left ∧ left ≤ rest.length then some size else none⟩

def recv_query (query_msg : Msg) (wire : Bytes) (malloc : Option Memory) : Receipt :=
  recv_msg query_msg.reset wire malloc

/-- The part of a round of the client's `recv_msg` from the size on, into the message
    `to_m` that already holds the header. -/
def recv_body (to_m : Msg) (rest : Bytes) (malloc : Option Memory) : Receipt :=
  let size := to_m.get_size
  if size < fmt_size then ⟨to_m, [], none⟩
  else
    match to_m.realloc size malloc with
    | none => ⟨to_m, [], none⟩
    | some to_m' =>
      if size - fmt_size = 0 then ⟨to_m', reallocEvents to_m size, some size⟩
      else
        ⟨to_m'.recv_all fmt_size (size - fmt_size) rest,
          reallocEvents to_m size ++
            [.stored (fmt_size + (rest.take (size - fmt_size)).length) to_m'.size],
          if size - fmt_size ≤ rest.length then some size else none⟩

structure Station where
  msg : Place → Msg
  /-- The declared size of the message a place holds; `none` when its last receive failed
      or only a header of another message went through it. -/
  declared : Place → Option Nat
  log : List Event

/-- Every message was initialised and nothing was received yet. -/
def Station.start (fmt : Place → Memory) : Station :=
  ⟨fun p => Msg.init (fmt p), fun _ => none, []⟩

def Station.receive (s : Station) (p : Place) (receipt : Receipt) : Station :=
  { msg := Function.update s.msg p receipt.msg
    declared := Function.update s.declared p receipt.declared
    log := s.log ++ receipt.log }

/-- The thread of the slot `id` receives a header into its own reply. -/
def Station.header (s : Station) (id : Fin QR_COUNT) (wire : Bytes) : Station :=
  let m := s.msg (.reply id)
  s.receive (.reply id)
    ⟨m.recv_all 0 fmt_size wire, [.stored (wire.take fmt_size).length m.size], none⟩

/-- The header goes on to the message it is for. -/
def forward (m to_m : Msg) : Receipt :=
  ⟨{ to_m with fmt := to_m.fmt.store 0 (m.fmt.load 0 fmt_size) }, [.stored fmt_size to_m.size], none⟩

/-- One round of the loop of the client's `recv_msg`: the next message of the socket goes
    to the reply its id names, whoever receives it. -/
def Station.recv_round (s : Station) (id : Fin QR_COUNT) (wire : Bytes) (malloc : Option Memory) :
    Station :=
  let s := s.header id wire
  let m := s.msg (.reply id)
  if wire.length < fmt_size then s
  else if known : m.get_id < QR_COUNT then
    let to_id : Fin QR_COUNT := ⟨m.get_id, known⟩
    let s :=
      if to_id ≠ id then s.receive (.reply to_id) (forward m (s.msg (.reply to_id))) else s
    s.receive (.reply to_id) (recv_body (s.msg (.reply to_id)) (wire.drop fmt_size) malloc)
  else s

/-- A pop moves the message on; the bytes it returned end where the offset now is. -/
def Station.pop (s : Station) (p : Place) (msg : Msg) (succeeded : Bool) : Station :=
  match s.declared p with
  | none => s
  | some declared =>
    { s with
      msg := Function.update s.msg p msg
      log := if succeeded then s.log ++ [.popped msg.off declared] else s.log }

inductive Act where
  | recv_query (wire : Bytes) (malloc : Option Memory)
  | recv_round (id : Fin QR_COUNT) (wire : Bytes) (malloc : Option Memory)
  | reset (p : Place)
  | pop_uint32 (p : Place)
  | pop_str (p : Place)
  | pop_buf (p : Place)

/-- Popping is for a message that was received. -/
def Station.act (s : Station) : Act → Station
  | .recv_query wire malloc => s.receive .query (Rtl.recv_query (s.msg .query) wire malloc)
  | .recv_round id wire malloc => s.recv_round id wire malloc
  | .reset p => { s with msg := Function.update s.msg p (s.msg p).reset }
  | .pop_uint32 p =>
    match (s.msg p).pop_uint32 with
    | none => s
    | some (_, msg) => s.pop p msg true
  | .pop_str p =>
    match (s.msg p).pop_str with
    | none => s
    | some (_, msg) => s.pop p msg true
  | .pop_buf p => s.pop p (s.msg p).pop_buf.2 (s.msg p).pop_buf.1.isSome

def Confined (log : List Event) : Prop := ∀ event ∈ log, event.Confined

@[simp] theorem stored_confined (stop room : Nat) : (Event.stored stop room).Confined ↔ stop ≤ room :=
  Iff.rfl

@[simp] theorem accepted_confined (declared : Nat) :
    (Event.accepted declared).Confined ↔ fmt_size ≤ declared := Iff.rfl

@[simp] theorem popped_confined (stop declared : Nat) :
    (Event.popped stop declared).Confined ↔ stop ≤ declared := Iff.rfl

@[simp] theorem confined_nil : Confined [] := List.forall_mem_nil _

@[simp] theorem confined_cons {event : Event} {log : List Event} :
    Confined (event :: log) ↔ event.Confined ∧ Confined log := List.forall_mem_cons

@[simp] theorem confined_append {log more : List Event} :
    Confined (log ++ more) ↔ Confined log ∧ Confined more := List.forall_mem_append

@[simp] theorem confined_accepted (declared : Option Nat) :
    Confined (declared.toList.map .accepted) ↔ ∀ size ∈ declared, fmt_size ≤ size := by
  cases declared with
  | none => simp
  | some size => simp

/-- A message between two calls. -/
structure Msg.Sound (msg : Msg) : Prop where
  header : fmt_size ≤ msg.size
  word : msg.size < 2 ^ 32
  body : fmt_size ≤ msg.off
  off : msg.off ≤ msg.size

theorem Msg.get_size_lt (msg : Msg) : msg.get_size < 2 ^ 32 := by
  have bound := ofLE_lt (msg.fmt.load 0 4)
  rw [Memory.load_length] at bound
  exact bound

variable {size : Nat}

theorem Msg.get_size_set_size (msg : Msg) (word : size < 2 ^ 32) :
    (msg.set_size size).get_size = size := by
  have loaded := Memory.load_store msg.fmt 0 0 4 (toLE 4 size) (by rw [toLE_length])
  have all : (toLE 4 size).take 4 = toLE 4 size := List.take_of_length_le (by rw [toLE_length])
  rw [List.drop_zero, all] at loaded
  simp only [Msg.get_size, Msg.set_size]
  exact (congrArg ofLE loaded).trans (ofLE_toLE 4 size word)

variable {msg' msg : Msg}

theorem Msg.realloc_some {malloc : Option Memory} (grown : msg.realloc size malloc = some msg') :
    msg'.size = max msg.size size ∧ msg'.off = msg.off := by
  unfold Msg.realloc at grown
  split at grown
  · next enough =>
      cases grown
      exact ⟨(max_eq_left enough).symm, rfl⟩
  · next more =>
      obtain ⟨_, _, rfl⟩ := Option.map_eq_some_iff.mp grown
      have greater : msg.size ≤ size := by omega
      exact ⟨(max_eq_right greater).symm, rfl⟩

theorem Msg.realloc_none {malloc : Option Memory}
    (failed : msg.realloc size malloc = none) : msg.size < size := by
  unfold Msg.realloc at failed
  split at failed
  · cases failed
  · omega

theorem reallocEvents_confined (sound : msg.Sound) (size : Nat) :
    Confined (reallocEvents msg size) := by
  have off := sound.off
  unfold reallocEvents
  split
  · exact confined_nil
  · next more =>
      have greater : msg.off ≤ size := by omega
      simpa using greater

/-- Of a size below 4 no more bytes may arrive than the buffer holds, and of one between
    5 and 9 fewer than it declares. -/
def Announced (m : Msg) (wire : Bytes) : Prop :=
  let declared := ofLE (wire.take 4)
  4 ≤ wire.length →
    (declared < 4 → wire.length ≤ m.size) ∧
      (4 < declared → declared < fmt_size → wire.length < declared)

theorem recv_msg_confined {m : Msg} (sound : m.Sound) (wire : Bytes) (malloc : Option Memory) :
    Confined (recv_msg m wire malloc).log ↔ Announced m wire := by
  have header := sound.header
  have word := sound.word
  have sizeWord : ofLE (wire.take 4) < 2 ^ 32 := by
    have bound := ofLE_lt (wire.take 4)
    have few : (wire.take 4).length ≤ 4 := List.length_take_le 4 wire
    exact lt_of_lt_of_le bound (Nat.pow_le_pow_right (by omega) few)
  have get := m.get_size_set_size sizeWord
  unfold recv_msg Announced
  generalize ofLE (wire.take 4) = declared at *
  have set : (m.set_size declared).size = m.size := rfl
  have soundSet : (m.set_size declared).Sound := ⟨header, word, sound.body, sound.off⟩
  have copied := reallocEvents_confined soundSet declared
  simp only [fmt_size] at header ⊢
  split
  · next short =>
      simp [Receipt.log]
      omega
  · next long =>
      simp only [get]
      split
      · next failed =>
          have many := Msg.realloc_none failed
          simp [Receipt.log]
          omega
      · next m' grown =>
          have size := (Msg.realloc_some grown).1
          simp only [Receipt.log, confined_append, confined_cons, copied, stored_confined,
            confined_accepted, Option.mem_def, Option.ite_none_right_eq_some, List.length_take,
            List.length_drop, confined_nil]
          simp [fmt_size]
          omega

theorem Msg.realloc_sound {malloc : Option Memory} (sound : msg.Sound)
    (word : size < 2 ^ 32) (grown : msg.realloc size malloc = some msg') : msg'.Sound := by
  obtain ⟨header, capacity, body, off⟩ := sound
  obtain ⟨newSize, newOff⟩ := Msg.realloc_some grown
  constructor <;> omega

theorem recv_msg_sound {m : Msg} (sound : m.Sound) (wire : Bytes) (malloc : Option Memory) :
    (recv_msg m wire malloc).msg.Sound := by
  have soundSet : (m.set_size (ofLE (wire.take 4))).Sound := ⟨sound.header, sound.word, sound.body, sound.off⟩
  unfold recv_msg
  split
  · exact sound
  · simp only
    split
    · exact soundSet
    · next m' grown =>
        have kept := Msg.realloc_sound soundSet (Msg.get_size_lt _) grown
        exact ⟨kept.header, kept.word, kept.body, kept.off⟩

theorem recv_body_sound {to_m : Msg} (sound : to_m.Sound) (rest : Bytes) (malloc : Option Memory) :
    (recv_body to_m rest malloc).msg.Sound := by
  unfold recv_body
  simp only
  split
  · exact sound
  · split
    · exact sound
    · next to_m' grown =>
        have kept := Msg.realloc_sound sound to_m.get_size_lt grown
        split
        · exact kept
        · exact ⟨kept.header, kept.word, kept.body, kept.off⟩

theorem recv_body_confined {to_m : Msg} (sound : to_m.Sound) (rest : Bytes) (malloc : Option Memory) :
    Confined (recv_body to_m rest malloc).log := by
  have copied := reallocEvents_confined sound to_m.get_size
  unfold recv_body
  simp only
  split
  · simp [Receipt.log]
  · next long =>
      split
      · simp [Receipt.log]
      · next to_m' grown =>
          have size := (Msg.realloc_some grown).1
          split
          · simp [Receipt.log, copied]
            omega
          · simp only [Receipt.log, confined_append, confined_cons, copied, stored_confined,
              confined_accepted, Option.mem_def, Option.ite_none_right_eq_some, List.length_take,
              confined_nil]
            refine ⟨⟨trivial, ?_, trivial⟩, ?_⟩
            · omega
            · rintro _ ⟨_, same⟩
              cases same
              omega

theorem Msg.pop_uint32_some {x : Nat} (popped : msg.pop_uint32 = some (x, msg')) :
    msg.CheckSize 4 ∧ x = ofLE (msg.fmt.load msg.off 4) ∧ msg' = { msg with off := msg.off + 4 } := by
  unfold Msg.pop_uint32 at popped
  split at popped
  · next enough =>
      cases popped
      exact ⟨enough, rfl, rfl⟩
  · cases popped

theorem Msg.pop_uint32_none (popped : msg.pop_uint32 = none) : ¬ msg.CheckSize 4 := by
  intro enough
  rw [Msg.pop_uint32, if_pos enough] at popped
  cases popped

theorem Msg.pop_str_some {text : Bytes} (popped : msg.pop_str = some (text, msg')) :
    ∃ n, msg.off + n < msg.size ∧ msg.fmt (msg.off + n) = 0 ∧
      (∀ k < n, msg.fmt (msg.off + k) ≠ 0) ∧ msg' = { msg with off := msg.off + n + 1 } := by
  obtain ⟨n, found, same⟩ := Option.map_eq_some_iff.mp popped
  obtain ⟨zero, small, first⟩ := List.find?_range_eq_some.mp found
  cases same
  have inside := List.mem_range.mp small
  refine ⟨n, by omega, of_decide_eq_true zero, ?_, rfl⟩
  intro k before
  simpa using first k before

theorem Msg.pop_str_none (popped : msg.pop_str = none) {i : Nat} (behind : msg.off ≤ i)
    (inside : i < msg.size) : msg.fmt i ≠ 0 := by
  obtain ⟨n, rfl⟩ := Nat.exists_eq_add_of_le behind
  have absent := List.find?_eq_none.mp (Option.map_eq_none_iff.mp popped) n
    (List.mem_range.mpr (by omega))
  simpa using absent

theorem Msg.pop_buf_cases (msg : Msg) :
    let x := ofLE (msg.fmt.load msg.off 4)
    (msg.CheckSize (4 + x) ∧ msg.pop_buf.1.isSome ∧ msg.pop_buf.2 = { msg with off := msg.off + 4 + x }) ∨
      (¬ msg.CheckSize (4 + x) ∧ msg.pop_buf.1 = none ∧
        ∃ off, msg.off ≤ off ∧ off ≤ max msg.off msg.size ∧ msg.pop_buf.2 = { msg with off := off }) := by
  simp only [Msg.pop_buf]
  cases first : msg.pop_uint32 with
  | none =>
    have short := Msg.pop_uint32_none first
    exact Or.inr ⟨by omega, rfl, msg.off, le_rfl, Nat.le_max_left .., rfl⟩
  | some found =>
    obtain ⟨x, next⟩ := found
    obtain ⟨enough, rfl, rfl⟩ := Msg.pop_uint32_some first
    simp only
    split
    · next inside => exact Or.inl ⟨by omega, rfl, rfl⟩
    · next beyond => exact Or.inr ⟨by omega, rfl, msg.off + 4, by omega, by omega, rfl⟩

def Station.Sound (s : Station) : Prop := ∀ p, (s.msg p).Sound

theorem Station.start_sound (fmt : Place → Memory) : (Station.start fmt).Sound :=
  fun _ => ⟨Nat.le_add_right .., show fmt_size + 64 < 2 ^ 32 by decide, le_rfl, Nat.le_add_right ..⟩

variable {s : Station} (p : Place)

theorem Station.sound_update (sound : s.Sound) (p : Place) (new : msg.Sound)
    (q : Place) : (Function.update s.msg p msg q).Sound := by
  by_cases same : q = p
  · subst same
    rwa [Function.update_self]
  · rw [Function.update_of_ne same]
    exact sound q

/-- The part of a receive that matters to the rest of the station. -/
structure Receipt.Good (receipt : Receipt) : Prop where
  sound : receipt.msg.Sound
  confined : Confined receipt.log

theorem Station.receive_good (sound : s.Sound) (p : Place) {receipt : Receipt}
    (good : receipt.Good) :
    (s.receive p receipt).Sound ∧ (Confined (s.receive p receipt).log ↔ Confined s.log) := by
  constructor
  · exact Station.sound_update sound p good.sound
  · exact confined_append.trans (and_iff_left good.confined)

theorem Station.header_good (sound : s.Sound) (id : Fin QR_COUNT) (wire : Bytes) :
    (s.header id wire).Sound ∧ (Confined (s.header id wire).log ↔ Confined s.log) := by
  have own := sound (.reply id)
  have room := own.header
  have few : (wire.take fmt_size).length ≤ fmt_size := List.length_take_le ..
  apply Station.receive_good sound
  constructor
  · exact ⟨own.header, own.word, own.body, own.off⟩
  · simp [Receipt.log]
    omega

theorem Station.forward_good (sound : s.Sound) (id to_id : Fin QR_COUNT) :
    let s' := if to_id ≠ id then
        s.receive (.reply to_id) (forward (s.msg (.reply id)) (s.msg (.reply to_id)))
      else s
    s'.Sound ∧ (Confined s'.log ↔ Confined s.log) := by
  have other := sound (.reply to_id)
  have room := other.header
  simp only
  split
  · apply Station.receive_good sound
    constructor
    · exact ⟨room, other.word, other.body, other.off⟩
    · simpa [Receipt.log, forward] using room
  · exact ⟨sound, Iff.rfl⟩

theorem Station.recv_round_good (sound : s.Sound) (id : Fin QR_COUNT) (wire : Bytes)
    (malloc : Option Memory) :
    (s.recv_round id wire malloc).Sound ∧
      (Confined (s.recv_round id wire malloc).log ↔ Confined s.log) := by
  obtain ⟨sound₁, log₁⟩ := Station.header_good sound id wire
  unfold Station.recv_round
  simp only
  generalize s.header id wire = s₁ at *
  split
  · exact ⟨sound₁, log₁⟩
  · split
    · next known =>
        generalize (⟨(s₁.msg (.reply id)).get_id, known⟩ : Fin QR_COUNT) = to_id
        have ⟨sound₂, log₂⟩ := Station.forward_good sound₁ id to_id
        generalize (if to_id ≠ id then _ else s₁ : Station) = s₂ at *
        have own := sound₂ (.reply to_id)
        have ⟨sound₃, log₃⟩ := Station.receive_good sound₂ (.reply to_id)
          ⟨recv_body_sound own (wire.drop fmt_size) malloc, recv_body_confined own (wire.drop fmt_size) malloc⟩
        exact ⟨sound₃, log₃.trans (log₂.trans log₁)⟩
    · exact ⟨sound₁, log₁⟩

/-- A pop that fits the buffer also fits the declared size. For a text, a zero byte of the
    message stands no later than any zero byte of the buffer. -/
def Station.Meets (s : Station) : Act → Prop
  | .recv_query wire _ => Announced (s.msg .query) wire
  | .recv_round .. | .reset _ => True
  | .pop_uint32 p => ∀ declared ∈ s.declared p,
      (s.msg p).CheckSize 4 → (s.msg p).off + 4 ≤ declared
  | .pop_str p => ∀ declared ∈ s.declared p,
      ∀ i, (s.msg p).off ≤ i → i < (s.msg p).size → (s.msg p).fmt i = 0 →
        ∃ j, (s.msg p).off ≤ j ∧ j ≤ i ∧ j < declared ∧ (s.msg p).fmt j = 0
  | .pop_buf p => ∀ declared ∈ s.declared p,
      let x := ofLE ((s.msg p).fmt.load (s.msg p).off 4)
      (s.msg p).CheckSize (4 + x) → (s.msg p).off + 4 + x ≤ declared

theorem Station.pop_sound (sound : s.Sound) (p : Place) {off : Nat}
    (forward : (s.msg p).off ≤ off) (inside : off ≤ (s.msg p).size) (succeeded : Bool) :
    (s.pop p { s.msg p with off := off } succeeded).Sound := by
  have own := sound p
  unfold Station.pop
  split
  · exact sound
  · exact Station.sound_update sound p ⟨own.header, own.word, le_trans own.body forward, inside⟩

theorem Station.pop_confined (s : Station) (p : Place) (off : Nat) :
    Confined (s.pop p { s.msg p with off := off } true).log ↔
      Confined s.log ∧ ∀ declared ∈ s.declared p, off ≤ declared := by
  unfold Station.pop
  split
  · next none => simp [none]
  · next declared some => simp [some]

theorem Station.pop_failed (s : Station) (p : Place) (msg : Msg) :
    (s.pop p msg false).log = s.log := by
  unfold Station.pop
  split <;> rfl

theorem Station.act_sound (sound : s.Sound) (a : Act) : (s.act a).Sound := by
  cases a with
  | recv_query wire malloc =>
    have own := sound .query
    have reset : (s.msg .query).reset.Sound := ⟨own.header, own.word, le_rfl, own.header⟩
    exact Station.sound_update sound .query (recv_msg_sound reset wire malloc)
  | recv_round id wire malloc => exact (Station.recv_round_good sound id wire malloc).1
  | reset p =>
    have own := sound p
    exact Station.sound_update sound p ⟨own.header, own.word, le_rfl, own.header⟩
  | pop_uint32 p =>
    simp only [Station.act]
    split
    · exact sound
    · next popped =>
        obtain ⟨enough, _, rfl⟩ := Msg.pop_uint32_some popped
        exact Station.pop_sound sound p (Nat.le_add_right ..) enough true
  | pop_str p =>
    simp only [Station.act]
    split
    · exact sound
    · next popped =>
        obtain ⟨n, inside, _, _, rfl⟩ := Msg.pop_str_some popped
        exact Station.pop_sound sound p (by omega) inside true
  | pop_buf p =>
    have own := (sound p).off
    rcases (s.msg p).pop_buf_cases with ⟨enough, _, moved⟩ | ⟨_, _, off, forward, small, moved⟩
    · simp only [Station.act, moved]
      exact Station.pop_sound sound p (by omega) (by omega) _
    · simp only [Station.act, moved]
      exact Station.pop_sound sound p (by omega) (by omega) _

theorem Station.act_confined (sound : s.Sound) (a : Act) :
    Confined (s.act a).log ↔ Confined s.log ∧ s.Meets a := by
  cases a with
  | recv_query wire malloc =>
    have own := sound .query
    have reset : (s.msg .query).reset.Sound := ⟨own.header, own.word, le_rfl, own.header⟩
    exact confined_append.trans (and_congr_right fun _ => recv_msg_confined reset wire malloc)
  | recv_round id wire malloc =>
    exact (Station.recv_round_good sound id wire malloc).2.trans (and_iff_left trivial).symm
  | reset p => exact (and_iff_left trivial).symm
  | pop_uint32 p =>
    simp only [Station.act, Station.Meets]
    split
    · next popped =>
        have short := Msg.pop_uint32_none popped
        simp [short]
    · next popped =>
        obtain ⟨enough, _, rfl⟩ := Msg.pop_uint32_some popped
        simpa [enough] using Station.pop_confined s p ((s.msg p).off + 4)
  | pop_str p =>
    simp only [Station.act, Station.Meets]
    split
    · next popped =>
        constructor
        · intro confined
          refine ⟨confined, ?_⟩
          intro _ _ i behind inside zero
          exact absurd zero (Msg.pop_str_none popped behind inside)
        · exact And.left
    · next popped =>
        obtain ⟨n, inside, zero, first, rfl⟩ := Msg.pop_str_some popped
        apply (Station.pop_confined s p ((s.msg p).off + n + 1)).trans
        apply and_congr_right
        intro _
        apply forall₂_congr
        intro declared _
        constructor
        · intro fits i behind _ zeroHere
          refine ⟨(s.msg p).off + n, by omega, ?_, by omega, zero⟩
          obtain ⟨k, rfl⟩ := Nat.exists_eq_add_of_le behind
          by_contra early
          exact first k (by omega) zeroHere
        · intro fits
          obtain ⟨j, behind, _, small, zeroHere⟩ := fits _ (by omega) inside zero
          obtain ⟨k, rfl⟩ := Nat.exists_eq_add_of_le behind
          by_contra long
          exact first k (by omega) zeroHere
  | pop_buf p =>
    simp only [Station.act, Station.Meets]
    rcases (s.msg p).pop_buf_cases with ⟨enough, succeeded, moved⟩ | ⟨short, failed, _, _, _, moved⟩
    · rw [succeeded, moved]
      simpa [enough] using Station.pop_confined s p _
    · rw [failed, Option.isSome_none, Station.pop_failed]
      simp [short]

def Station.Step (s : Station) (a : Act) (s' : Station) : Prop := s' = s.act a

theorem Station.run_sound {fmt : Place → Memory}
    (run : Runs Station.Step (fun _ _ => True) (Station.start fmt) s) : s.Sound := by
  apply run.keeps _ (Station.start_sound fmt)
  rintro s a _ sound _ rfl
  exact Station.act_sound sound a

/-- In the runs whose receives and pops all meet the condition nothing is stored outside, no short
    size is accepted and nothing behind the declared size is popped; and the first call that does
    not meet it breaks this. -/
theorem messages_confined (fmt : Place → Memory) (s : Station) :
    (Runs Station.Step Station.Meets (Station.start fmt) s → Confined s.log) ∧
      (Runs Station.Step (fun _ _ => True) (Station.start fmt) s →
        Confined s.log → ∀ a s', s.Step a s' → (Confined s'.log ↔ s.Meets a)) := by
  constructor
  · intro run
    have both : s.Sound ∧ Confined s.log := by
      apply run.keeps _ ⟨Station.start_sound fmt, confined_nil⟩
      rintro s a _ ⟨sound, confined⟩ meets rfl
      exact ⟨Station.act_sound sound a, (Station.act_confined sound a).mpr ⟨confined, meets⟩⟩
    exact both.2
  · rintro run confined a _ rfl
    exact (Station.act_confined (Station.run_sound run) a).trans (and_iff_right confined)

/-- Of a size of 2 the server takes the four bytes of the size off, and stores all that
    arrives behind the 74 bytes of its buffer. -/
theorem messages_leave_buffer :
    ¬ ∀ (fmt : Place → Memory) (s : Station),
      Runs Station.Step (fun _ _ => True) (Station.start fmt) s → Confined s.log := by
  intro confined
  let wire : Bytes := 2 :: List.replicate 74 0
  let s := Station.start (fun _ _ => 0)
  have start : Runs Station.Step (fun _ _ => True) s s := .refl
  have all := confined _ _ (start.tail (a := .recv_query wire none) rfl trivial)
  have meets := ((Station.act_confined (Station.start_sound _) _).mp all).2
  have fits := (meets (by decide)).1 (by decide)
  exact absurd fits (by decide)

end Soapy.Rtl
