import Soapy.Lib.Runs

/-! # The transmit buffer of SoapyPlutoSDR

`tx_streamer` collects items in one IIO buffer and pushes it when it is full, at the end of a burst
and on a flush, with zeros behind the last item. One stream channel with the direct copy, and pushes
that succeed.
-/

namespace Soapy.Transmit.PlutoBuffer

open Lib

/-- I and Q as they stand in the IIO buffer. -/
abbrev Frame := Int16 × Int16

inductive Format where
  | CS16
  | CS12
  | CS8

abbrev Format.Item : Format → Type
  | .CS16 => Int16 × Int16
  | .CS12 => UInt8 × UInt8 × UInt8
  | .CS8 => Int8 × Int8

/-- The loops of `tx_streamer::send`. -/
def Format.frame : (format : Format) → format.Item → Frame
  | .CS16, item => item
  | .CS12, (src0, src1, src2) =>
    ((src1.toUInt16 <<< 12 ||| src0.toUInt16 <<< 4).toInt16,
      (src2.toUInt16 <<< 8 ||| (src1.toUInt16 &&& 0xf0)).toInt16)
  | .CS8, (i, q) => (i.toInt16 <<< 8, q.toInt16 <<< 8)

/-- The loop of `rx_streamer::recv` for CS12. -/
def recvCS12 (i q : Int16) : UInt8 × UInt8 × UInt8 :=
  (i.toUInt16.toUInt8, (q <<< 4 ||| (i >>> 8 &&& 0x0f)).toUInt16.toUInt8, (q >>> 4).toUInt16.toUInt8)

def buf_size : Nat := 4096

def SOAPY_SDR_END_BURST : Int32 := 2

/-- The level of the logger that `send` returns for an error. -/
def SOAPY_SDR_ERROR : Int := 3

/-- What a buffer is pushed by: a flush, or a call with or without the end of a burst, whose elements
    were all accepted or not. -/
inductive Cause where
  | flush
  | send (burst all : Bool)
deriving DecidableEq

/-- A pushed buffer, and how many of its frames came from calls. -/
structure Push where
  frames : List Frame
  items : Nat
  cause : Cause

/-- Behind the fields it is kept what was pushed, what the calls put into the buffer, and for each call
    what it returned and how many samples it took. -/
structure State where
  items_in_buf : Nat
  buf : List Frame
  pushed : List Push
  accepted : List Frame
  returned : List (Int × Nat)

def send_buf (s : State) (cause : Cause) : Int × State :=
  if 0 < s.items_in_buf then
    let buf :=
      if s.items_in_buf < buf_size then
        s.buf.take s.items_in_buf ++ List.replicate (buf_size - s.items_in_buf) (0, 0)
      else s.buf
    (buf_size, { s with
      items_in_buf := 0, buf := buf, pushed := s.pushed ++ [⟨buf, s.items_in_buf, cause⟩] })
  else (0, s)

/-- The elements of the call are `samples`. -/
def send (s : State) (format : Format) (samples : List format.Item) (flags : Int32) : State :=
  let items := min (buf_size - s.items_in_buf) samples.length
  let frames := (samples.take items).map format.frame
  let copied := { s with
    items_in_buf := s.items_in_buf + items
    buf := s.buf.take s.items_in_buf ++ frames ++ s.buf.drop (s.items_in_buf + items)
    accepted := s.accepted ++ frames }
  let (ret, s) :=
    if copied.items_in_buf = buf_size ∨ flags &&& SOAPY_SDR_END_BURST ≠ 0 ∧ samples.length = items then
      let (ret, s) := send_buf copied
        (.send (flags &&& SOAPY_SDR_END_BURST ≠ 0) (samples.length = items))
      (if ret < 0 ∨ ret ≠ buf_size then SOAPY_SDR_ERROR else items, s)
    else ((items : Int), copied)
  { s with returned := s.returned ++ [(ret, items)] }

inductive Call where
  | send (format : Format) (samples : List format.Item) (flags : Int32)
  | flush

def call (s : State) : Call → State
  | .send format samples flags => send s format samples flags
  | .flush => (send_buf s .flush).2

def State.start (buf : List Frame) : State := ⟨0, buf, [], [], []⟩

/-- Where zeros may stand behind the items. -/
def Cause.MayPad : Cause → Prop
  | .flush => True
  | .send burst all => burst = true ∧ all = true

structure Push.Sound (p : Push) : Prop where
  length : p.frames.length = buf_size
  padding : p.frames.drop p.items = List.replicate (buf_size - p.items) (0, 0)
  cause : p.items < buf_size → p.cause.MayPad

structure Sound (s : State) : Prop where
  pushes : ∀ p ∈ s.pushed, p.Sound
  stream : s.pushed.flatMap (fun p => p.frames.take p.items) ++ s.buf.take s.items_in_buf = s.accepted
  room : s.items_in_buf < buf_size
  counted : ∀ r ∈ s.returned, r.1 = r.2

def Proper (s : State) : Call → Prop
  | .send _ samples flags =>
    flags &&& SOAPY_SDR_END_BURST ≠ 0 → samples = [] → s.items_in_buf ≠ 0
  | .flush => True

structure Filled (s : State) : Prop where
  length : s.buf.length = buf_size
  pushes : ∀ p ∈ s.pushed, p.Sound
  stream : s.pushed.flatMap (fun p => p.frames.take p.items) ++ s.buf.take s.items_in_buf = s.accepted
  fits : s.items_in_buf ≤ buf_size
  counted : ∀ r ∈ s.returned, r.1 = r.2

variable {s : State}

theorem send_buf_filled (filled : Filled s) {cause : Cause}
    (may : s.items_in_buf < buf_size → cause.MayPad) :
    Filled (send_buf s cause).2 ∧ (send_buf s cause).2.items_in_buf = 0 ∧
      (0 < s.items_in_buf → (send_buf s cause).1 = buf_size) := by
  have length := filled.length
  have fits := filled.fits
  rw [send_buf]
  by_cases some_items : 0 < s.items_in_buf
  · rw [if_pos some_items]
    -- the items stay and zeros follow them
    obtain ⟨buf, same, whole, items, zeros⟩ : ∃ buf : List Frame,
        (if s.items_in_buf < buf_size then
          s.buf.take s.items_in_buf ++ List.replicate (buf_size - s.items_in_buf) (0, 0)
        else s.buf) = buf ∧ buf.length = buf_size ∧
          buf.take s.items_in_buf = s.buf.take s.items_in_buf ∧
          buf.drop s.items_in_buf = List.replicate (buf_size - s.items_in_buf) (0, 0) := by
      have taken : (s.buf.take s.items_in_buf).length = s.items_in_buf := by
        rw [List.length_take]
        omega
      by_cases part : s.items_in_buf < buf_size
      · refine ⟨_, if_pos part, ?_, List.take_left' taken, List.drop_left' taken⟩
        rw [List.length_append, taken, List.length_replicate]
        omega
      · refine ⟨_, if_neg part, length, rfl, ?_⟩
        rw [List.drop_eq_nil_of_le (by omega), Nat.sub_eq_zero_of_le (Nat.not_lt.mp part)]
        rfl
    simp only [same]
    refine ⟨⟨whole, ?_, ?_, Nat.zero_le _, filled.counted⟩, trivial, fun _ => trivial⟩
    · intro p member
      rcases List.mem_append.mp member with before | last
      · exact filled.pushes p before
      · rw [List.mem_singleton.mp last]
        exact ⟨whole, zeros, may⟩
    · rw [List.flatMap_append, List.flatMap_singleton, items, List.take_zero, List.append_nil]
      exact filled.stream
  · rw [if_neg some_items]
    exact ⟨filled, Nat.eq_zero_of_not_pos some_items, fun positive => absurd positive some_items⟩

/-- The samples behind the first items of a full buffer. -/
theorem copied_take {buf frames : List Frame} {k : Nat} (fits : k + frames.length ≤ buf.length) :
    (buf.take k ++ frames ++ buf.drop (k + frames.length)).take (k + frames.length) =
        buf.take k ++ frames ∧
      (buf.take k ++ frames ++ buf.drop (k + frames.length)).length = buf.length := by
  have front : (buf.take k ++ frames).length = k + frames.length := by
    rw [List.length_append, List.length_take]
    omega
  constructor
  · exact List.take_left' front
  · rw [List.length_append, front, List.length_drop]
    omega

theorem call_filled (filled : Filled s) (room : s.items_in_buf < buf_size) {c : Call}
    (proper : Proper s c) : Filled (call s c) ∧ (call s c).items_in_buf < buf_size := by
  cases c with
  | flush =>
    obtain ⟨kept, empty, -⟩ := @send_buf_filled s filled .flush fun _ => trivial
    exact ⟨kept, by rw [call, empty]; decide⟩
  | send format samples flags =>
    simp only [call, send]
    generalize items_eq : min (buf_size - s.items_in_buf) samples.length = items
    have frames_length : ((samples.take items).map format.frame).length = items := by
      rw [List.length_map, List.length_take]
      omega
    obtain ⟨front, length⟩ := @copied_take s.buf ((samples.take items).map format.frame)
      s.items_in_buf (by rw [frames_length, filled.length]; omega)
    rw [frames_length] at front length
    have copied : Filled { s with
        items_in_buf := s.items_in_buf + items
        buf := s.buf.take s.items_in_buf ++ (samples.take items).map format.frame ++
          s.buf.drop (s.items_in_buf + items)
        accepted := s.accepted ++ (samples.take items).map format.frame } := by
      refine ⟨length.trans filled.length, filled.pushes, ?_, by dsimp only; omega, filled.counted⟩
      dsimp only
      rw [front, ← List.append_assoc, filled.stream]
    have counted : ∀ {s : State} {ret : Int}, Filled s → ret = items →
        Filled { s with returned := s.returned ++ [(ret, items)] } := fun kept same =>
      ⟨kept.length, kept.pushes, kept.stream, kept.fits, fun r member => by
        rcases List.mem_append.mp member with before | last
        · exact kept.counted r before
        · rw [List.mem_singleton.mp last, same]⟩
    split
    · rename_i pushes
      have some_items : 0 < s.items_in_buf + items := by
        rcases pushes with full | ⟨burst, all⟩
        · have : 0 < buf_size := by decide
          omega
        · by_contra none
          have no_samples : samples = [] := List.length_eq_zero_iff.mp (by omega)
          exact proper burst no_samples (by omega)
      obtain ⟨kept, empty, ret⟩ := @send_buf_filled _ copied
        (.send (flags &&& SOAPY_SDR_END_BURST ≠ 0) (samples.length = items)) fun part => by
          have burst := pushes.resolve_left (Nat.ne_of_lt part)
          exact ⟨decide_eq_true burst.1, decide_eq_true burst.2⟩
      refine ⟨counted kept ?_, by dsimp only; rw [empty]; decide⟩
      rw [ret some_items, if_neg (by simp)]
    · rename_i holds
      refine ⟨counted copied rfl, ?_⟩
      have := copied.fits
      exact Nat.lt_of_le_of_ne this fun full => holds (.inl full)

theorem frame_recvCS12 (i q : Int16) : Format.CS12.frame (recvCS12 i q) = (i <<< 4, q <<< 4) := by
  have first : ∀ x y : BitVec 16, (((y <<< 4 ||| (x.sshiftRight 8 &&& 0x0f#16)).setWidth 8).setWidth
      16 <<< 12 ||| (x.setWidth 8).setWidth 16 <<< 4) = x <<< 4 := by
    intro x y
    apply BitVec.eq_of_getLsbD_eq
    intro k below
    simp only [BitVec.getLsbD_or, BitVec.getLsbD_shiftLeft, BitVec.getLsbD_setWidth,
      BitVec.getLsbD_and, BitVec.getLsbD_sshiftRight]
    interval_cases k <;> simp
  have second : ∀ x y : BitVec 16, (((y.sshiftRight 4).setWidth 8).setWidth 16 <<< 8 |||
      (((y <<< 4 ||| (x.sshiftRight 8 &&& 0x0f#16)).setWidth 8).setWidth 16 &&& 0xf0#16)) =
        y <<< 4 := by
    intro x y
    apply BitVec.eq_of_getLsbD_eq
    intro k below
    simp only [BitVec.getLsbD_or, BitVec.getLsbD_shiftLeft, BitVec.getLsbD_setWidth,
      BitVec.getLsbD_and, BitVec.getLsbD_sshiftRight]
    interval_cases k <;> simp
  exact Prod.ext (Int16.toBitVec_inj.mp (first i.toBitVec q.toBitVec))
    (Int16.toBitVec_inj.mp (second i.toBitVec q.toBitVec))

theorem shiftLeft_four {v : Int16} (low : -2048 ≤ v.toInt) (high : v.toInt ≤ 2047) :
    (v <<< 4).toInt = 16 * v.toInt := by
  have shifted : (v <<< 4).toInt = ((v.toBitVec.toNat <<< 4 : Nat) : Int).bmod (2 ^ 16) :=
    BitVec.toInt_shiftLeft
  have value : v.toInt = (v.toBitVec.toNat : Int).bmod (2 ^ 16) := BitVec.toInt_eq_toNat_bmod _
  rw [shifted, Nat.shiftLeft_eq]
  rw [Int.bmod_def] at value ⊢
  split at value <;> split <;> push_cast at * <;> omega

/-- In every run of proper calls the buffers are sound in every state, and the CS12 bytes of received
    samples are sent as 16 times the samples. -/
theorem buffers_sound (buf : List Frame) (length : buf.length = buf_size) :
    (∀ s, Runs (fun s c s' => call s c = s') Proper (.start buf) s → Sound s) ∧
    ∀ i q : Int16, -2048 ≤ i.toInt → i.toInt ≤ 2047 → -2048 ≤ q.toInt → q.toInt ≤ 2047 →
      (Format.CS12.frame (recvCS12 i q)).1.toInt = 16 * i.toInt ∧
        (Format.CS12.frame (recvCS12 i q)).2.toInt = 16 * q.toInt := by
  constructor
  · intro s run
    have start : Filled (.start buf) ∧ (State.start buf).items_in_buf < buf_size :=
      ⟨⟨length, nofun, rfl, Nat.zero_le _, nofun⟩, (by decide : 0 < buf_size)⟩
    obtain ⟨filled, room⟩ := run.keeps (I := fun s => Filled s ∧ s.items_in_buf < buf_size)
      (fun _ _ _ inv proper taken => taken ▸ call_filled inv.1 inv.2 proper) start
    exact ⟨filled.pushes, filled.stream, room, filled.counted⟩
  · intro i q low high low' high'
    rw [frame_recvCS12]
    exact ⟨shiftLeft_four low high, shiftLeft_four low' high'⟩

theorem buffers_sound_burst :
    Sound (call (.start (List.replicate buf_size (0, 0)))
      (.send .CS16 [(1, 2)] SOAPY_SDR_END_BURST)) ∧
      (Format.CS12.frame (recvCS12 5 (-7))).1.toInt = 16 * (5 : Int16).toInt :=
  ⟨(buffers_sound _ List.length_replicate).1 _ (.head (a := .send .CS16 [(1, 2)] SOAPY_SDR_END_BURST)
      rfl (fun _ none => nomatch none) .refl),
    ((buffers_sound (.replicate buf_size (0, 0)) List.length_replicate).2 5 (-7) (by decide) (by decide) (by decide) (by decide)).1⟩

/-- The end of a burst without an element, with an empty buffer, returns 3. -/
theorem buffers_unsound : ∃ s, Runs (fun s c s' => call s c = s') (fun _ _ => True)
    (.start (List.replicate buf_size (0, 0))) s ∧ s.returned = [(3, 0)] ∧ ¬ Sound s :=
  ⟨_, .head (a := .send .CS16 [] SOAPY_SDR_END_BURST) rfl trivial .refl, rfl,
    fun sound => absurd (sound.counted (3, 0) (List.mem_singleton.mpr rfl)) (by decide)⟩

end Soapy.Transmit.PlutoBuffer
