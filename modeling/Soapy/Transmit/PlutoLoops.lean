import Mathlib

/-! # The copy loops of SoapyPlutoSDR

The samples of `n` stream channels stand in an IIO buffer as frames of `2 * n` words of 16 bits. A
loop is the list of its moves between words of that buffer and positions of the buffers of the
caller, with `iio_channel_convert` and its inverse the identity.
-/

namespace Soapy.Transmit.PlutoLoops

structure Move where
  word : Nat
  buff : Nat
  position : Nat
deriving DecidableEq

/-- `iio_buffer_step`. -/
def buf_step (n : Nat) : Nat := 4 * n

/-- The byte address of the first word of a channel, from `iio_buffer_start` on. -/
def iio_buffer_first (channel : Nat) : Nat := 2 * channel

/-- The loops of `rx_streamer::recv` without the direct copy. `src_ptr` points to words of 16 bits. -/
def recvGeneric (n items byte_offset : Nat) : List Move :=
  (List.range (2 * n)).flatMap fun i => (List.range items).map fun j =>
    ⟨(iio_buffer_first i + byte_offset) / 2 + j * buf_step n, i / 2, j * 2 + i⟩

def recvDirect (items byte_offset : Nat) : List Move :=
  (List.range (items * 2)).map fun index => ⟨byte_offset / 2 + index, 0, index⟩

/-- The loops of `tx_streamer::send` without the direct copy. `dst_ptr` points to bytes. -/
def sendGeneric (n items items_in_buf : Nat) : List Move :=
  (List.range (2 * n)).flatMap fun k => (List.range items).map fun j =>
    ⟨(iio_buffer_first k + items_in_buf * buf_step n + j * buf_step n) / 2, k / 2, j * 2 + k⟩

def sendDirect (items items_in_buf : Nat) : List Move :=
  (List.range (items * 2)).map fun index => ⟨items_in_buf * 2 + index, 0, index⟩

/-- The formats that both kinds of loops have in both directions. -/
inductive Format where
  | CS16
  | CS8

abbrev Format.Sample : Format → Type
  | .CS16 => Int16
  | .CS8 => Int8

def Format.received : (format : Format) → Int16 → format.Sample
  | .CS16, v => v
  | .CS8, v => (v >>> 4).toInt8

def Format.sent : (format : Format) → format.Sample → Int16
  | .CS16, v => v
  | .CS8, v => v.toInt16 <<< 8

def assign {τ β : Type} [DecidableEq τ] (l : List (τ × β)) (memory : τ → β) : τ → β :=
  l.foldl (fun memory w => Function.update memory w.1 w.2) memory

def receive (format : Format) (moves : List Move) (words : Nat → Int16) :
    (Nat × Nat → format.Sample) → Nat × Nat → format.Sample :=
  assign (moves.map fun m => ((m.buff, m.position), format.received (words m.word)))

def send (format : Format) (moves : List Move) (buffs : Nat × Nat → format.Sample) :
    (Nat → Int16) → Nat → Int16 :=
  assign (moves.map fun m => (m.word, format.sent (buffs (m.buff, m.position))))

/-- Of every frame from `frame` on the words `2 * c` and `2 * c + 1` go with the positions of the
    item in the buffer of the channel, and nothing else does. -/
def Exact (n items frame : Nat) (moves : List Move) : Prop :=
  ∀ m, m ∈ moves ↔ ∃ c < n, ∃ j < items, ∃ b < 2,
    m = ⟨(frame + j) * (2 * n) + 2 * c + b, c, 2 * j + b⟩

section

variable {τ β : Type} [DecidableEq τ] {l l' : List (τ × β)} {t : τ} {v : β}

theorem assign_other (memory : τ → β) (other : ∀ w ∈ l, w.1 ≠ t) : assign l memory t = memory t := by
  induction l generalizing memory with
  | nil => rfl
  | cons w l ih =>
    rw [assign, List.foldl_cons]
    refine (ih _ fun w member => other w (.tail _ member)).trans ?_
    exact Function.update_of_ne (Ne.symm (other w List.mem_cons_self)) _ _

theorem assign_value (memory : τ → β) (found : (t, v) ∈ l) (alike : ∀ w ∈ l, w.1 = t → w.2 = v) :
    assign l memory t = v := by
  induction l generalizing memory with
  | nil => cases found
  | cons w l ih =>
    rw [assign, List.foldl_cons]
    have later := fun memory (found : (t, v) ∈ l) =>
      ih memory found fun w member => alike w (.tail _ member)
    by_cases again : ∃ u ∈ l, u.1 = t
    · obtain ⟨u, member, rfl⟩ := again
      have value := alike u (.tail _ member) rfl
      exact later _ (value ▸ member)
    · push Not at again
      rcases List.mem_cons.mp found with rfl | found
      · exact (assign_other _ again).trans (Function.update_self ..)
      · exact absurd rfl (again _ found)

/-- The order of assignments that agree does not matter. -/
theorem assign_congr (memory : τ → β) (same : ∀ w, w ∈ l ↔ w ∈ l')
    (alike : ∀ w ∈ l, ∀ w' ∈ l, w.1 = w'.1 → w.2 = w'.2) : assign l memory = assign l' memory := by
  funext t
  by_cases found : ∃ w ∈ l, w.1 = t
  · obtain ⟨w, member, rfl⟩ := found
    have here := fun w' member' same => alike w' member' w member same
    rw [assign_value memory member here,
      assign_value memory ((same w).mp member) fun w' member' => here w' ((same w').mpr member')]
  · push Not at found
    rw [assign_other memory found,
      assign_other memory fun w member => found w ((same w).mpr member)]

end

variable {n items : Nat} {m : Move}

theorem mem_recvGeneric {byte_offset : Nat} : m ∈ recvGeneric n items byte_offset ↔
    ∃ i < 2 * n, ∃ j < items,
      m = ⟨i + byte_offset / 2 + j * (4 * n), i / 2, j * 2 + i⟩ := by
  have half : ∀ i, (2 * i + byte_offset) / 2 = i + byte_offset / 2 := fun i => by omega
  simp [recvGeneric, iio_buffer_first, buf_step, half, eq_comm]

theorem mem_sendGeneric {items_in_buf : Nat} : m ∈ sendGeneric n items items_in_buf ↔
    ∃ k < 2 * n, ∃ j < items,
      m = ⟨k + (items_in_buf + j) * (2 * n), k / 2, j * 2 + k⟩ := by
  have half : ∀ k j, (2 * k + items_in_buf * (4 * n) + j * (4 * n)) / 2 =
      k + (items_in_buf + j) * (2 * n) := fun k j => by
    rw [show 2 * k + items_in_buf * (4 * n) + j * (4 * n) =
      2 * (k + (items_in_buf + j) * (2 * n)) by ring]
    exact Nat.mul_div_cancel_left _ (by decide)
  simp [sendGeneric, iio_buffer_first, buf_step, half, eq_comm]

theorem one_channel {frame : Nat} {moves : List Move} (exact_ : Exact n items frame moves)
    (some_items : 0 < items) (pos : 0 < n)
    (reached : ∀ m ∈ moves, ∃ i j, m.buff = i / 2 ∧ m.position = j * 2 + i) : n = 1 := by
  by_contra more
  obtain ⟨i, j, buff, position⟩ := reached _ ((exact_ ⟨_, 1, 0⟩).mpr
    ⟨1, by omega, 0, some_items, 0, by decide, rfl⟩)
  dsimp only at buff position
  omega

theorem recvGeneric_exact_iff (pos : 0 < n) (frame : Nat) :
    Exact n items frame (recvGeneric n items (frame * buf_step n)) ↔
      items = 0 ∨ n = 1 ∧ items = 1 := by
  constructor
  · intro exact_
    rcases Nat.eq_zero_or_pos items with none | some_items
    · exact .inl none
    · have one := one_channel exact_ some_items pos fun m member => by
        obtain ⟨i, -, j, -, rfl⟩ := mem_recvGeneric.mp member
        exact ⟨i, j, rfl, rfl⟩
      subst one
      refine .inr ⟨rfl, ?_⟩
      by_contra more
      have second := (exact_ ⟨(frame + 1) * 2, 0, 2⟩).mpr
        ⟨0, Nat.one_pos, 1, by omega, 0, by decide, rfl⟩
      obtain ⟨i, _, j, _, same⟩ := mem_recvGeneric.mp second
      simp only [Move.mk.injEq, buf_step] at same
      omega
  · rintro (rfl | ⟨rfl, rfl⟩) m
    · rw [mem_recvGeneric]
      exact ⟨fun ⟨_, _, _, below, _⟩ => absurd below (Nat.not_lt_zero _),
        fun ⟨_, _, _, below, _⟩ => absurd below (Nat.not_lt_zero _)⟩
    · rw [mem_recvGeneric]
      constructor
      · rintro ⟨i, inside, j, one, rfl⟩
        refine ⟨0, Nat.one_pos, 0, Nat.one_pos, i, inside, ?_⟩
        simp only [Move.mk.injEq, buf_step]
        omega
      · rintro ⟨c, inside, j, one, b, two, rfl⟩
        refine ⟨b, two, 0, Nat.one_pos, ?_⟩
        simp only [Move.mk.injEq, buf_step]
        omega

theorem sendGeneric_exact_iff (pos : 0 < n) (items_in_buf : Nat) :
    Exact n items items_in_buf (sendGeneric n items items_in_buf) ↔ items = 0 ∨ n = 1 := by
  constructor
  · intro exact_
    rcases Nat.eq_zero_or_pos items with none | some_items
    · exact .inl none
    · refine .inr (one_channel exact_ some_items pos fun m member => ?_)
      obtain ⟨k, -, j, -, rfl⟩ := mem_sendGeneric.mp member
      exact ⟨k, j, rfl, rfl⟩
  · rintro (rfl | rfl) m
    · rw [mem_sendGeneric]
      exact ⟨fun ⟨_, _, _, below, _⟩ => absurd below (Nat.not_lt_zero _),
        fun ⟨_, _, _, below, _⟩ => absurd below (Nat.not_lt_zero _)⟩
    · rw [mem_sendGeneric]
      constructor
      · rintro ⟨k, inside, j, below, rfl⟩
        refine ⟨0, Nat.one_pos, j, below, k, inside, ?_⟩
        simp only [Move.mk.injEq]
        omega
      · rintro ⟨c, inside, j, below, b, two, rfl⟩
        refine ⟨b, two, j, below, ?_⟩
        simp only [Move.mk.injEq]
        omega

theorem send_same (format : Format) (items_in_buf : Nat) (buffs : Nat × Nat → format.Sample)
    (words : Nat → Int16) : send format (sendGeneric 1 items items_in_buf) buffs words =
      send format (sendDirect items items_in_buf) buffs words := by
  have members : ∀ m, m ∈ sendGeneric 1 items items_in_buf ↔ m ∈ sendDirect items items_in_buf := by
    intro m
    simp only [mem_sendGeneric, sendDirect, List.mem_map, List.mem_range]
    constructor
    · rintro ⟨k, two, j, below, rfl⟩
      refine ⟨j * 2 + k, by omega, ?_⟩
      simp only [Move.mk.injEq, and_true]
      omega
    · rintro ⟨index, below, rfl⟩
      refine ⟨index % 2, by omega, index / 2, by omega, ?_⟩
      simp only [Move.mk.injEq]
      omega
  apply assign_congr
  · intro w
    simp [members]
  · simp only [List.mem_map, mem_sendGeneric]
    rintro _ ⟨_, ⟨k, two, j, below, rfl⟩, rfl⟩ _ ⟨_, ⟨k', two', j', below', rfl⟩, rfl⟩ same
    dsimp only at same ⊢
    have positions : j * 2 + k = j' * 2 + k' := by omega
    rw [positions, show k / 2 = k' / 2 by omega]

theorem receive_same_iff (format : Format) (byte_offset : Nat) :
    (∀ words buffs, receive format (recvGeneric 1 items byte_offset) words buffs =
      receive format (recvDirect items byte_offset) words buffs) ↔ items ≤ 1 := by
  constructor
  · intro same
    by_contra more
    -- the second item comes from behind the next frame
    let words : Nat → Int16 := fun w => if w = byte_offset / 2 + 2 then 16 else 0
    let silent : Nat × Nat → format.Sample := fun _ => format.received 0
    have direct : receive format (recvDirect items byte_offset) words silent (0, 2) =
        format.received 16 := by
      apply assign_value
      · refine List.mem_map.mpr ⟨⟨byte_offset / 2 + 2, 0, 2⟩, List.mem_map.mpr ⟨2, ?_, rfl⟩, ?_⟩
        · exact List.mem_range.mpr (by omega)
        · simp [words]
      · simp only [recvDirect, List.mem_map]
        rintro _ ⟨_, ⟨index, _, rfl⟩, rfl⟩ at_two
        have two : index = 2 := congrArg Prod.snd at_two
        simp [words, two]
    have generic : receive format (recvGeneric 1 items byte_offset) words silent (0, 2) =
        format.received 0 := by
      apply assign_value
      · refine List.mem_map.mpr ⟨⟨byte_offset / 2 + 4, 0, 2⟩, mem_recvGeneric.mpr
          ⟨0, by decide, 1, by omega, by simp only [Move.mk.injEq, and_true]; omega⟩, ?_⟩
        simp [words]
      · simp only [List.mem_map, mem_recvGeneric]
        rintro _ ⟨_, ⟨i, two, j, _, rfl⟩, rfl⟩ at_two
        have place : j * 2 + i = 2 := congrArg Prod.snd at_two
        have apart : i + byte_offset / 2 + j * (4 * 1) ≠ byte_offset / 2 + 2 := by omega
        simp only [words, if_neg apart]
    rw [same, direct] at generic
    cases format
    · exact absurd generic (by decide)
    · exact absurd generic (by decide)
  · intro few words buffs
    have both : recvGeneric 1 items byte_offset = recvDirect items byte_offset := by
      have half : (2 + byte_offset) / 2 = byte_offset / 2 + 1 := by omega
      have cases : items = 0 ∨ items = 1 := by omega
      rcases cases with rfl | rfl
      · rfl
      · simp [recvGeneric, recvDirect, iio_buffer_first, List.range_succ, half]
    rw [both]

/-- The receiving loops are right for one item of one stream channel only, and the sending loops for
    one stream channel. -/
theorem loops_exact_iff (n items : Nat) (format : Format) :
    (∀ frame, 0 < n → (Exact n items frame (recvGeneric n items (frame * buf_step n)) ↔
      items = 0 ∨ n = 1 ∧ items = 1)) ∧
    (∀ items_in_buf, 0 < n →
      (Exact n items items_in_buf (sendGeneric n items items_in_buf) ↔ items = 0 ∨ n = 1)) ∧
    (∀ byte_offset, (∀ words buffs, receive format (recvGeneric 1 items byte_offset) words buffs =
        receive format (recvDirect items byte_offset) words buffs) ↔ items ≤ 1) ∧
    ∀ (items_in_buf : Nat) (buffs : Nat × Nat → format.Sample) (words : Nat → Int16),
      send format (sendGeneric 1 items items_in_buf) buffs words =
        send format (sendDirect items items_in_buf) buffs words :=
  ⟨fun frame pos => recvGeneric_exact_iff pos frame,
    fun items_in_buf pos => sendGeneric_exact_iff pos items_in_buf,
    fun byte_offset => receive_same_iff format byte_offset,
    fun items_in_buf => send_same format items_in_buf⟩

theorem loops_exact_one :
    (Exact 1 1 5 (recvGeneric 1 1 (5 * buf_step 1)) ↔ 1 = 0 ∨ 1 = 1 ∧ 1 = 1) ∧
      (Exact 1 7 5 (sendGeneric 1 7 5) ↔ 7 = 0 ∨ 1 = 1) :=
  ⟨(loops_exact_iff 1 1 .CS16).1 5 (by decide), (loops_exact_iff 1 7 .CS16).2.1 5 (by decide)⟩

/-- Two items of one stream channel: the second one is taken from the frame behind the next one. -/
theorem loops_differ :
    recvGeneric 1 2 0 = [⟨0, 0, 0⟩, ⟨4, 0, 2⟩, ⟨1, 0, 1⟩, ⟨5, 0, 3⟩] ∧
      ¬ Exact 1 2 0 (recvGeneric 1 2 0) := by
  refine ⟨by decide, fun exact_ => ?_⟩
  have second := (exact_ ⟨2, 0, 2⟩).mpr ⟨0, by decide, 1, by decide, 0, by decide, rfl⟩
  exact absurd second (by decide)

end Soapy.Transmit.PlutoLoops
