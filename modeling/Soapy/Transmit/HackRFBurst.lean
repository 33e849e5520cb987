import Soapy.Transmit.HackRF

/-! # The transmission of a burst

Buffer `k` of the burst is filled with the samples from `k * mtu` on. The writer finds out that a
buffer is the last one only from what the callback has left of the burst.
-/

namespace Soapy.Transmit.HackRF

open Lib HandleRing

variable {buf_num mtu : Nat} [NeZero buf_num] {α : Type} [Zero α] {samples : List α}

/-- Where the burst is over, zeros follow. -/
def pad (samples : List α) (i : Nat) : α := samples.getD i 0

theorem pad_behind {i : Nat} (behind : samples.length ≤ i) : pad samples i = 0 := by
  rw [pad, List.getD_eq_getElem?_getD, List.getElem?_eq_none behind]
  rfl

def State.holds (s : State buf_num mtu α) : Nat :=
  match s.remainderHandle with
  | some _ => 1
  | none => 0

/-- The buffers that were filled. -/
def State.released (s : State buf_num mtu α) : Nat := s.transfers.length + s.buf_count

def State.position (s : State buf_num mtu α) : Nat :=
  match s.place with
  | .idle => s.supplied
  | .writes _ => s.supplied
  | .releases_remainder _ n => s.supplied + n
  | .acquires _ samp_avail => s.supplied + samp_avail
  | .copies _ samp_avail => s.supplied + samp_avail
  | .releases returnedElems => s.supplied + returnedElems

def State.At (samples : List α) (s : State buf_num mtu α) : Prop :=
  match s.place with
  | .idle => s.supplied ≤ samples.length ∧ (s.remainderHandle ≠ none → 0 < s.remainderSamps)
  | .writes r => r ≤ mtu ∧ s.supplied + r ≤ samples.length ∧
      (s.remainderHandle ≠ none → 0 < s.remainderSamps)
  | .releases_remainder r n => s.remainderHandle ≠ none ∧ s.remainderSamps = 0 ∧ n ≤ r ∧ r ≤ mtu ∧
      s.supplied + r ≤ samples.length
  | .acquires r n => s.remainderHandle = none ∧ n ≤ r ∧ r ≤ mtu ∧ s.supplied + r ≤ samples.length
  | .copies r n => s.remainderHandle ≠ none ∧ 0 < s.remainderSamps ∧ s.remainderOffset = 0 ∧
      n ≤ r ∧ r ≤ mtu ∧ s.supplied + r ≤ samples.length
  | .releases r => s.remainderHandle ≠ none ∧ s.remainderSamps = 0 ∧ s.supplied + r ≤ samples.length

/-- The buffer that is being filled, and how far. Behind the last one there may be another that
    nothing is put into. -/
def State.Fills (samples : List α) (s : State buf_num mtu α) : Prop :=
  (s.released ≤ samples.length / mtu ∧ s.position = s.released * mtu + s.remainderOffset ∧
      (s.remainderHandle ≠ none → s.remainderOffset + s.remainderSamps =
        min mtu (samples.length - s.released * mtu))) ∨
    (s.released = samples.length / mtu + 1 ∧ s.position = samples.length ∧ s.remainderOffset = 0 ∧
      (s.remainderHandle ≠ none → 0 < s.remainderSamps))

def State.Burst (samples : List α) (s : State buf_num mtu α) : Prop :=
  (s.stopped = true ∧ s.burst_end = false ∧ s.transfers.length = samples.length / mtu + 1) ∨
    (s.stopped = false ∧ s.burst_end = true ∧ s.transfers.length ≤ samples.length / mtu ∧
      s.burst_samps = samples.length - s.transfers.length * mtu)

structure Inv (samples : List α) (s : State buf_num mtu α) : Prop where
  head : s.buf_head = slot s.buf_tail (s.buf_count + s.holds)
  room : s.buf_count + s.holds ≤ buf_num
  held : ∀ handle, s.remainderHandle = some handle → handle = slot s.buf_tail s.buf_count
  free : s.remainderHandle = none → s.remainderOffset = 0
  sent : ∀ k t, s.transfers[k]? = some t → ∀ i : Fin mtu, t i = pad samples (k * mtu + i)
  waiting : ∀ k < s.buf_count, ∀ i : Fin mtu,
    s.buf (slot s.buf_tail k) i = pad samples ((s.transfers.length + k) * mtu + i)
  filled : ∀ handle, s.remainderHandle = some handle → s.released ≤ samples.length / mtu →
    ∀ i : Fin mtu,
      (i.val < s.remainderOffset → s.buf handle i = pad samples (s.released * mtu + i)) ∧
        (s.released = samples.length / mtu → samples.length % mtu ≤ i.val → s.buf handle i = 0)
  fills : s.Fills samples
  burst : s.Burst samples
  place : s.At samples

/-- The burst has a last part, and its length and that of a buffer are read as they are. -/
structure Sizes (mtu : Nat) (samples : List α) : Prop where
  positive : 0 < mtu
  small : mtu < 2 ^ 31
  part : samples.length % mtu ≠ 0
  short : samples.length < 2 ^ 31

omit [Zero α] in
theorem Sizes.parts (sizes : Sizes mtu samples) :
    samples.length = samples.length / mtu * mtu + samples.length % mtu ∧
      0 < samples.length % mtu ∧ samples.length % mtu < mtu :=
  ⟨(Nat.div_add_mod' _ _).symm, Nat.pos_of_ne_zero sizes.part, Nat.mod_lt _ sizes.positive⟩

theorem int32_of_small {v : Int} (low : -2147483648 ≤ v) (high : v < 2147483648) : int32 v = v :=
  Int.bmod_eq_of_le (by norm_num; omega) (by norm_num; omega)

theorem Inv.start {s : State buf_num mtu α} (fresh : Fresh samples s) :
    Inv samples (s.activateStream samples.length) := by
  have none_waits := fresh.none_waits
  obtain ⟨none, off⟩ := fresh.no_remainder
  have short := fresh.short
  have zero : (s.activateStream samples.length).holds = 0 := by
    simp only [State.holds, State.activateStream, none]
  have released : (s.activateStream samples.length).released = 0 := by
    simp [State.released, State.activateStream, none_waits]
  constructor
  · rw [zero]
    change (0 : Fin buf_num) = slot 0 (s.buf_count + 0)
    rw [none_waits, slot_zero]
  · rw [zero]
    change s.buf_count + 0 ≤ buf_num
    rw [none_waits]
    exact Nat.zero_le _
  · intro handle some
    cases none.symm.trans some
  · intro _
    exact off
  · intro k t some
    cases some
  · intro k below
    change k < s.buf_count at below
    omega
  · intro handle some
    cases none.symm.trans some
  · left
    refine ⟨released ▸ Nat.zero_le _, ?_, fun some => absurd none some⟩
    rw [released, Nat.zero_mul]
    change State.position { s with supplied := 0 } = 0 + s.remainderOffset
    simp only [State.position, fresh.idle, off]
  · right
    refine ⟨rfl, rfl, Nat.zero_le _, ?_⟩
    have announced : (s.activateStream samples.length).burst_samps = int32 samples.length := by
      rw [State.activateStream]
    have nothing : (s.activateStream samples.length).transfers = [] := rfl
    rw [announced, int32_of_small (by omega) (by omega), nothing]
    simp
  · change State.At samples { s with supplied := 0 }
    simp only [State.At, fresh.idle]
    exact ⟨Nat.zero_le _, fun some => absurd none some⟩

section Steps

variable {s : State buf_num mtu α}

theorem Inv.memcpy (inv : Inv samples s) (some_waits : s.buf_count ≠ 0) {burst_end : Bool}
    {burst_samps : Int} {stopped : Bool} (burst : State.Burst samples { s.memcpy with
      burst_end := burst_end, burst_samps := burst_samps, stopped := stopped }) :
    Inv samples { s.memcpy with
      burst_end := burst_end, burst_samps := burst_samps, stopped := stopped } := by
  let s' : State buf_num mtu α :=
    { s.memcpy with burst_end := burst_end, burst_samps := burst_samps, stopped := stopped }
  have head := inv.head
  have room := inv.room
  have count : s'.buf_count = s.buf_count - 1 := rfl
  have holds : s'.holds = s.holds := rfl
  have length : s'.transfers.length = s.transfers.length + 1 :=
    List.length_append.trans rfl
  have released : s'.released = s.released := by
    simp only [State.released, length, count]
    omega
  change Inv samples s'
  constructor
  · change s.buf_head = slot (slot s.buf_tail 1) (s.buf_count - 1 + s.holds)
    rw [slot_slot, head]
    congr 1
    omega
  · rw [holds, count]
    omega
  · intro handle some
    change handle = slot (slot s.buf_tail 1) (s.buf_count - 1)
    rw [slot_slot, inv.held handle some]
    congr 1
    omega
  · exact inv.free
  · intro k t there i
    change (s.transfers ++ [s.buf s.buf_tail])[k]? = some t at there
    rcases Nat.lt_or_ge k s.transfers.length with old | new
    · rw [List.getElem?_append_left old] at there
      exact inv.sent k t there i
    · have oldest := inv.waiting 0 (by omega) i
      rw [List.getElem?_append_right new] at there
      obtain ⟨rfl, rfl⟩ : k = s.transfers.length ∧ s.buf s.buf_tail = t := by
        rcases Nat.eq_or_lt_of_le new with same | beyond
        · subst same
          rw [Nat.sub_self] at there
          exact ⟨rfl, Option.some.inj there⟩
        · rw [List.getElem?_eq_none (by simp; omega)] at there
          cases there
      rwa [slot_zero, Nat.add_zero] at oldest
  · intro k below i
    have waits := inv.waiting (1 + k) (by omega) i
    change s.buf (slot (slot s.buf_tail 1) k) i = _
    rw [slot_slot, waits, length, Nat.add_assoc]
  · intro handle some
    rw [released]
    exact inv.filled handle some
  · have fills := inv.fills
    unfold State.Fills at fills ⊢
    rw [released]
    exact fills
  · exact burst
  · exact inv.place

theorem Inv.callback (sizes : Sizes mtu samples) (inv : Inv samples s) :
    Inv samples s.hackrf_tx_callback := by
  obtain ⟨whole, some_part, part_small⟩ := sizes.parts
  have small := sizes.small
  have short := sizes.short
  unfold State.hackrf_tx_callback
  split
  · exact { inv with }
  · rename_i some_waits
    have within : s.released ≤ samples.length / mtu + 1 := by
      rcases inv.fills with ⟨le, -⟩ | ⟨same, -⟩ <;> omega
    have length : s.memcpy.transfers.length = s.transfers.length + 1 :=
      List.length_append.trans rfl
    unfold State.released at within
    rcases inv.burst with ⟨-, -, all⟩ | ⟨going, burst_end, few, left⟩
    · omega
    · have below := Nat.mul_le_mul_right mtu few
      have less : int32 (s.burst_samps - mtu) =
          samples.length - (s.transfers.length + 1 : Nat) * mtu := by
        rw [left, int32_of_small (by omega) (by omega), Nat.cast_succ, Int.add_mul]
        omega
      rw [if_pos burst_end, less]
      split
      · rename_i past
        refine inv.memcpy some_waits (.inl ⟨rfl, rfl, ?_⟩)
        change s.memcpy.transfers.length = _
        have last : ¬ s.transfers.length + 1 ≤ samples.length / mtu := by
          intro more
          have := Nat.mul_le_mul_right mtu more
          omega
        omega
      · rename_i more
        refine inv.memcpy some_waits (.inr ⟨going, burst_end, ?_, ?_⟩)
        · change s.memcpy.transfers.length ≤ _
          rw [length]
          by_contra beyond
          have last : s.transfers.length + 1 = samples.length / mtu + 1 := by omega
          rw [last, Nat.cast_succ, Int.add_mul] at more
          omega
        · change _ = (samples.length : Int) - (s.memcpy.transfers.length : Nat) * mtu
          rw [length]

variable {place : Place} {supplied : Nat}

theorem Inv.moves (inv : Inv samples s)
    (same : State.position { s with place := place, supplied := supplied } = s.position)
    (at_place : State.At samples { s with place := place, supplied := supplied }) :
    Inv samples { s with place := place, supplied := supplied } := by
  have fills := inv.fills
  refine { inv with fills := ?_, place := at_place }
  unfold State.Fills at fills ⊢
  rw [same]
  exact fills

theorem Inv.writebuf {handle : Fin buf_num} {offset n : Nat}
    (inv : Inv samples s) (some : s.remainderHandle = some handle)
    (here : offset = s.remainderOffset) (enough : n ≤ s.remainderSamps)
    (position : State.position { s with place := place, supplied := supplied } = s.position + n)
    (within : s.position + n ≤ samples.length)
    (at_place : State.At samples { s.writebuf samples handle offset s.position n with
      place := place, supplied := supplied }) :
    Inv samples { s.writebuf samples handle offset s.position n with
      place := place, supplied := supplied } := by
  subst here
  let s' : State buf_num mtu α :=
    { s.writebuf samples handle s.remainderOffset s.position n with
      place := place, supplied := supplied }
  have released : s'.released = s.released := rfl
  have own := inv.held handle some
  have one : s.holds = 1 := by simp only [State.holds, some]
  have room := inv.room
  rw [one] at room
  change Inv samples s'
  refine { inv with free := ?_, waiting := ?_, filled := ?_, fills := ?_, place := at_place }
  · intro none
    cases none.symm.trans some
  · intro k below i
    change k < s.buf_count at below
    have apart : slot s.buf_tail k ≠ handle := by
      intro same
      rw [own] at same
      have equal := slot_inj (by omega) (by omega) same
      omega
    change Function.update s.buf handle _ (slot s.buf_tail k) i = _
    rw [Function.update_of_ne apart]
    exact inv.waiting k below i
  · intro handle' some' unfinished i
    obtain rfl := Option.some.inj (some.symm.trans some')
    obtain ⟨before, behind⟩ := inv.filled handle some unfinished i
    have at_offset : s.position = s.released * mtu + s.remainderOffset := by
      rcases inv.fills with ⟨-, at_offset, -⟩ | ⟨beyond, -⟩
      · exact at_offset
      · rw [released] at unfinished
        omega
    have new : s'.buf handle i =
        if s.remainderOffset ≤ i.val ∧ i.val < s.remainderOffset + n then
          samples.getD (s.position + (i.val - s.remainderOffset)) 0
        else s.buf handle i := by
      change Function.update s.buf handle _ handle i = _
      rw [Function.update_self]
    rw [released, new]
    constructor
    · intro below
      change i.val < s.remainderOffset + n at below
      split
      · rename_i copied
        have index : s.position + (i.val - s.remainderOffset) = s.released * mtu + i := by omega
        rw [index]
        rfl
      · exact before (by omega)
    · intro last beyond
      split
      · rename_i copied
        have whole := Nat.div_add_mod' samples.length mtu
        rw [← last] at whole
        exact pad_behind (by omega)
      · exact behind last beyond
  · have fills := inv.fills
    have offset : s'.remainderOffset = s.remainderOffset + n := rfl
    have samps : s'.remainderSamps = s.remainderSamps - n := rfl
    have position' : s'.position = s.position + n := position
    change s'.Fills samples
    unfold State.Fills at fills ⊢
    rw [released, offset, samps, position']
    rcases fills with ⟨le, at_offset, rest⟩ | ⟨beyond, all, none, rest⟩
    · have rest := rest (by rw [some]; nofun)
      exact .inl ⟨le, by omega, fun _ => by omega⟩
    · have rest := rest (by rw [some]; nofun)
      exact .inr ⟨beyond, by omega, by omega, fun _ => by omega⟩

theorem Inv.releases (sizes : Sizes mtu samples)
    (inv : Inv samples s) (some : s.remainderHandle ≠ none) (full : s.remainderSamps = 0)
    (position : State.position { s with place := place, supplied := supplied } = s.position)
    (at_place : State.At samples { s.releaseWriteBuffer with
      place := place, supplied := supplied }) :
    Inv samples { s.releaseWriteBuffer with place := place, supplied := supplied } := by
  obtain ⟨handle, some'⟩ := Option.ne_none_iff_exists'.mp some
  let s' : State buf_num mtu α := { s.releaseWriteBuffer with place := place, supplied := supplied }
  obtain ⟨whole, -, part_small⟩ := sizes.parts
  have released : s'.released = s.released + 1 := rfl
  have one : s.holds = 1 := by simp only [State.holds, some']
  have room := inv.room
  have own := inv.held handle some'
  rw [one] at room
  obtain ⟨le, at_offset, rest⟩ : s.released ≤ samples.length / mtu ∧
      s.position = s.released * mtu + s.remainderOffset ∧
        s.remainderOffset = min mtu (samples.length - s.released * mtu) := by
    rcases inv.fills with ⟨le, at_offset, rest⟩ | ⟨-, -, -, rest⟩
    · have rest := rest some
      exact ⟨le, at_offset, by omega⟩
    · have rest := rest some
      omega
  have below := Nat.mul_le_mul_right mtu le
  have next : s.released < samples.length / mtu →
      s.released * mtu + mtu ≤ samples.length / mtu * mtu := by
    intro less
    rw [← Nat.succ_mul]
    exact Nat.mul_le_mul_right mtu less
  have fills : s'.Fills samples := by
    have position' : s'.position = s.position := position
    unfold State.Fills
    rw [released, position']
    rcases Nat.lt_or_eq_of_le le with less | last
    · have next := next less
      refine .inl ⟨less, ?_, fun some => absurd rfl some⟩
      change s.position = (s.released + 1) * mtu + 0
      rw [Nat.succ_mul]
      omega
    · refine .inr ⟨by omega, ?_, rfl, fun some => absurd rfl some⟩
      rw [last] at at_offset rest
      omega
  change Inv samples s'
  refine { inv with
    head := ?_, room := room, held := ?_, free := fun _ => rfl, waiting := ?_, filled := ?_,
    fills := fills, place := at_place }
  · have head := inv.head
    rw [one] at head
    exact head
  · nofun
  · intro k waits i
    change k < s.buf_count + 1 at waits
    rcases Nat.lt_or_ge k s.buf_count with old | new
    · exact inv.waiting k old i
    · obtain rfl : k = s.buf_count := by omega
      change s.buf (slot s.buf_tail s.buf_count) i = pad samples (s.released * mtu + i)
      rw [← own]
      obtain ⟨before, behind⟩ := inv.filled handle some' le i
      rcases Nat.lt_or_ge i.val s.remainderOffset with written | cleared
      · exact before written
      · rcases Nat.lt_or_eq_of_le le with less | last
        · have next := next less
          omega
        · rw [last] at rest ⊢
          rw [behind last (by omega), pad_behind (by omega)]
  · nofun

theorem Inv.acquired {r samp_avail samps : Nat} {buf : Fin buf_num → Fin mtu → α}
    (inv : Inv samples s) (at_place : s.place = .acquires r samp_avail)
    (room : s.buf_count ≠ buf_num) (some_samps : 0 < samps)
    (others : ∀ k < s.buf_count, buf (slot s.buf_tail k) = s.buf (slot s.buf_tail k))
    (told : s.released ≤ samples.length / mtu →
      samps = min mtu (samples.length - s.released * mtu))
    (cleared : s.released = samples.length / mtu →
      ∀ i : Fin mtu, samples.length % mtu ≤ i.val → buf s.buf_head i = 0) :
    Inv samples { s with
      buf_head := slot s.buf_head 1
      buf := buf
      place := .copies r samp_avail
      remainderHandle := some s.buf_head
      remainderSamps := samps } := by
  have place := inv.place
  simp only [State.At, at_place] at place
  obtain ⟨none, le, short, within⟩ := place
  have zero : s.holds = 0 := by simp only [State.holds, none]
  have off := inv.free none
  have head := inv.head
  have within_ring := inv.room
  have fills := inv.fills
  rw [zero, Nat.add_zero] at head within_ring
  refine { inv with
    head := ?_, room := ?_, held := ?_, free := ?_, waiting := ?_, filled := ?_, fills := ?_,
    place := ?_ }
  · change slot s.buf_head 1 = slot s.buf_tail (s.buf_count + 1)
    rw [head, slot_slot]
  · change s.buf_count + 1 ≤ buf_num
    omega
  · intro handle same
    rw [← head]
    exact (Option.some.inj same).symm
  · nofun
  · intro k below i
    change buf (slot s.buf_tail k) i = _
    rw [others k below]
    exact inv.waiting k below i
  · intro handle same _ i
    obtain rfl := Option.some.inj same
    refine ⟨fun below => ?_, fun last => cleared last i⟩
    change i.val < s.remainderOffset at below
    omega
  · unfold State.Fills at fills ⊢
    have position : s.position = s.supplied + samp_avail := by
      simp only [State.position, at_place]
    rw [position] at fills
    rcases fills with ⟨unfinished, at_offset, -⟩ | ⟨beyond, all, -⟩
    · refine .inl ⟨unfinished, at_offset, fun _ => ?_⟩
      change s.remainderOffset + samps = _
      rw [off, Nat.zero_add]
      exact told unfinished
    · exact .inr ⟨beyond, all, off, fun _ => some_samps⟩
  · exact ⟨nofun, some_samps, off, le, short, within⟩

theorem Inv.acquires {r samp_avail : Nat} (sizes : Sizes mtu samples) (inv : Inv samples s)
    (at_place : s.place = .acquires r samp_avail) (room : s.buf_count ≠ buf_num)
    (meets : Meets samples s .acquire) :
    Inv samples
      (if s.acquireWriteBuffer.1 < 0 then s.acquireWriteBuffer.2.fails
      else
        { s.acquireWriteBuffer.2 with
          place := .copies r samp_avail
          remainderHandle := some s.buf_head
          remainderSamps := s.acquireWriteBuffer.1.toNat }) := by
  obtain ⟨whole, some_part, part_small⟩ := sizes.parts
  have positive := sizes.positive
  have small := sizes.small
  have short := sizes.short
  have place := inv.place
  simp only [State.At, at_place] at place
  have none := place.1
  have zero : s.holds = 0 := by simp only [State.holds, none]
  have head := inv.head
  have within_ring := inv.room
  rw [zero, Nat.add_zero] at head within_ring
  have released : s.released = s.transfers.length + s.buf_count := rfl
  -- Before the last buffer the writer waits for the callback.
  have last : s.released = samples.length / mtu →
      s.transfers.length = samples.length / mtu ∧
        ∀ i : Fin mtu, mtu / 2 ≤ i.val → samples.length % mtu ≤ i.val →
          s.buf s.buf_head i = 0 := by
    intro all
    have at_edge : s.supplied + samp_avail = samples.length / mtu * mtu := by
      have position : s.position = s.supplied + samp_avail := by
        simp only [State.position, at_place]
      have off := inv.free none
      rcases inv.fills with ⟨-, at_offset, -⟩ | ⟨beyond, -⟩
      · rw [all] at at_offset
        omega
      · omega
    exact meets r samp_avail at_place (by omega) (by omega)
  have before : s.released < samples.length / mtu →
      mtu = min mtu (samples.length - s.released * mtu) := by
    intro less
    have next := Nat.mul_le_mul_right mtu less
    rw [Nat.succ_mul] at next
    omega
  have left : s.burst_end = true → s.transfers.length ≤ samples.length / mtu ∧
      s.burst_samps = samples.length - s.transfers.length * mtu ∧
        int32 (s.burst_samps - int32 mtu) =
          samples.length - s.transfers.length * mtu - mtu := by
    intro going
    rcases inv.burst with ⟨-, past, -⟩ | ⟨-, -, few, left⟩
    · cases going.symm.trans past
    · have below := Nat.mul_le_mul_right mtu few
      refine ⟨few, left, ?_⟩
      rw [left, int32_of_small (v := mtu) (by omega) (by omega),
        int32_of_small (by omega) (by omega)]
  unfold State.acquireWriteBuffer
  split
  · rename_i short_burst
    obtain ⟨few, left, less⟩ := left short_burst.1
    have past := short_burst.2
    rw [less] at past
    have all : s.transfers.length = samples.length / mtu := by
      by_contra more
      have next := Nat.mul_le_mul_right mtu (Nat.lt_of_le_of_ne few more)
      rw [Nat.succ_mul] at next
      omega
    rw [all] at left
    rw [if_neg (by omega)]
    refine inv.acquired at_place room (by omega) ?_ ?_ ?_
    · intro k below
      refine Function.update_of_ne ?_ _ _
      intro same
      rw [head] at same
      have equal := slot_inj (by omega) (by omega) same
      omega
    · intro unfinished
      have all' : s.released = samples.length / mtu := by omega
      rw [all']
      omega
    · intro all' i behind
      have zeros := (last all').2 i
      change Function.update s.buf s.buf_head _ s.buf_head i = 0
      rw [Function.update_self]
      split
      · rfl
      · exact zeros (by omega) behind
  · rename_i long_burst
    have going : s.released ≤ samples.length / mtu → s.released < samples.length / mtu := by
      intro unfinished
      by_contra beyond
      have all := (last (by omega)).1
      rcases inv.burst with ⟨-, -, done⟩ | ⟨-, going, -⟩
      · omega
      · obtain ⟨-, -, less⟩ := left going
        rw [all] at less
        exact long_burst ⟨going, by omega⟩
    rw [if_neg (by omega)]
    refine inv.acquired at_place room positive (fun _ _ => rfl)
      (fun unfinished => before (going unfinished)) ?_
    intro all
    have := going (by omega)
    omega

theorem Inv.step (sizes : Sizes mtu samples) {a : Act} {s' : State buf_num mtu α}
    (inv : Inv samples s) (meets : Meets samples s a) (step : Step samples s a s') :
    Inv samples s' := by
  have place := inv.place
  cases step with
  | callback => exact inv.callback sizes
  | @writeStream numElems at_place within =>
    simp only [State.At, at_place] at place
    refine inv.moves (by simp only [State.position, at_place]) ?_
    exact ⟨Nat.min_le_right _ _, (Nat.add_le_add_left (Nat.min_le_left _ _) _).trans within,
      place.2⟩
  | @write_remainder r handle at_place some =>
    simp only [State.At, at_place] at place
    obtain ⟨short, within, -⟩ := place
    have position : s.supplied = s.position := by simp only [State.position, at_place]
    rw [position]
    split
    · rename_i full
      refine inv.writebuf some rfl (Nat.min_le_left _ _) ?_ (by omega) ?_
      · rw [← position]
        rfl
      · exact ⟨by rw [State.writebuf, some]; nofun, full, Nat.min_le_right _ _, short, within⟩
    · rename_i more
      have all : min s.remainderSamps r = r := by omega
      rw [State.remainder_written, if_pos all]
      refine inv.writebuf some rfl (Nat.min_le_left _ _) ?_ (by omega) ?_
      · rw [← position, all]
        rfl
      · exact ⟨within, fun _ => Nat.pos_of_ne_zero more⟩
  | @no_remainder r at_place none =>
    simp only [State.At, at_place] at place
    refine inv.moves (by simp only [State.position, at_place, Nat.add_zero]) ?_
    exact ⟨none, Nat.zero_le _, place.1, place.2.1⟩
  | @release_remainder r n at_place =>
    simp only [State.At, at_place] at place
    obtain ⟨some, full, le, short, within⟩ := place
    unfold State.remainder_written
    split
    · rename_i all
      subst all
      refine inv.releases sizes some full (by simp only [State.position, at_place]; rfl) ?_
      exact ⟨within, fun some => absurd rfl some⟩
    · rename_i rest
      have less : n < r := by omega
      rw [if_pos less]
      refine inv.releases sizes some full (by simp only [State.position, at_place]; rfl) ?_
      exact ⟨rfl, le, short, within⟩
  | @timeout r samp_avail at_place full =>
    simp only [State.At, at_place] at place
    split
    · refine inv.moves (by simp only [State.position, at_place]) ?_
      exact ⟨(Nat.add_le_add_left place.2.1 _).trans place.2.2.2, fun some => absurd place.1 some⟩
    · refine inv.moves (by simp only [State.position, at_place]; omega) ?_
      exact ⟨Nat.le_of_add_right_le place.2.2.2, fun some => absurd place.1 some⟩
  | @acquire r samp_avail at_place room => exact inv.acquires sizes at_place room meets
  | @copy r samp_avail handle at_place some =>
    simp only [State.At, at_place] at place
    obtain ⟨held, some_samps, off, le, short, within⟩ := place
    have position : s.supplied + samp_avail = s.position := by
      simp only [State.position, at_place]
    have fits : r - samp_avail ≤ s.remainderSamps := by
      rcases inv.fills with ⟨-, at_offset, rest⟩ | ⟨-, all, -⟩
      · have rest := rest held
        omega
      · omega
    rw [position, Nat.min_eq_left fits]
    split
    · rename_i full
      refine inv.writebuf some off.symm fits ?_ (by omega) ?_
      · rw [← position]
        change s.supplied + r = _
        omega
      · exact ⟨held, full, within⟩
    · rename_i more
      refine inv.writebuf some off.symm fits ?_ (by omega) ?_
      · rw [← position]
        change s.supplied + r = _
        omega
      · exact ⟨within, fun _ => Nat.pos_of_ne_zero more⟩
  | @release r at_place =>
    simp only [State.At, at_place] at place
    refine inv.releases sizes place.1 place.2.1 (by simp only [State.position, at_place]; rfl) ?_
    exact ⟨place.2.2, fun some => absurd rfl some⟩

end Steps

omit [Zero α] in
theorem flatMap_ofFn (f : Nat → α) (buffers : List (Fin mtu → α))
    (hold : ∀ k t, buffers[k]? = some t → ∀ i : Fin mtu, t i = f (k * mtu + i)) :
    buffers.flatMap List.ofFn = (List.range (buffers.length * mtu)).map f := by
  induction buffers using List.reverseRecOn with
  | nil => simp
  | append_singleton buffers last ih =>
    have same : List.ofFn last = (List.range mtu).map (fun i => f (buffers.length * mtu + i)) := by
      apply List.ext_getElem (by simp)
      intro i _ below
      simp only [List.length_map, List.length_range] at below
      simpa using hold buffers.length last (by simp) ⟨i, below⟩
    have first := ih fun k t there => hold k t (by
      rw [List.getElem?_append_left (List.getElem?_eq_some_iff.mp there).1]
      exact there)
    rw [List.flatMap_append, first, List.flatMap_singleton, same, List.length_append,
      List.length_singleton, Nat.succ_mul, List.range_add, List.map_append, List.map_map]
    rfl

theorem padded_eq (sizes : Sizes mtu samples) :
    padded mtu samples =
      (List.range ((samples.length / mtu + 1) * mtu)).map (pad samples) := by
  obtain ⟨whole, some_part, part_small⟩ := sizes.parts
  have zeros : (mtu - samples.length % mtu) % mtu = mtu - samples.length % mtu :=
    Nat.mod_eq_of_lt (by omega)
  rw [padded, zeros, Nat.succ_mul]
  apply List.ext_getElem
  · simp only [List.length_append, List.length_replicate, List.length_map, List.length_range]
    omega
  · intro i _ _
    rw [List.getElem_map, List.getElem_range, pad, List.getD_eq_getElem?_getD]
    rcases Nat.lt_or_ge i samples.length with inside | behind
    · rw [List.getElem_append_left inside, List.getElem?_eq_getElem inside]
      rfl
    · rw [List.getElem_append_right behind, List.getElem_replicate,
        List.getElem?_eq_none behind]
      rfl

theorem Inv.transmitted {s : State buf_num mtu α} (sizes : Sizes mtu samples)
    (inv : Inv samples s) : Transmitted samples s := by
  obtain ⟨whole, some_part, part_small⟩ := sizes.parts
  have sent : s.sent = (List.range (s.transfers.length * mtu)).map (pad samples) :=
    flatMap_ofFn (pad samples) s.transfers inv.sent
  have few : s.transfers.length ≤ samples.length / mtu + 1 := by
    rcases inv.burst with ⟨-, -, all⟩ | ⟨-, -, few, -⟩ <;> omega
  have stops : s.stopped = true ↔ s.transfers.length = samples.length / mtu + 1 := by
    rcases inv.burst with ⟨stopped, -, all⟩ | ⟨going, -, few, -⟩
    · exact iff_of_true stopped all
    · exact iff_of_false (by rw [going]; nofun) (by omega)
  refine ⟨?_, ?_, ?_, ?_⟩
  · obtain ⟨rest, same⟩ := Nat.exists_eq_add_of_le (Nat.mul_le_mul_right mtu few)
    rw [sent, padded_eq sizes, same, List.range_add, List.map_append]
    exact List.prefix_append _ _
  · rw [stops, sent, padded_eq sizes]
    constructor
    · intro all
      rw [all]
    · intro same
      have lengths := congrArg List.length same
      simp only [List.length_map, List.length_range] at lengths
      exact Nat.eq_of_mul_eq_mul_right sizes.positive lengths
  · intro stopped
    rcases inv.burst with ⟨-, past, -⟩ | ⟨going, -⟩
    · exact past
    · cases stopped.symm.trans going
  · intro idle all none_waits
    have place := inv.place
    have position : s.position = s.supplied := by simp only [State.position, idle]
    have released : s.released = s.transfers.length := by
      rw [State.released, none_waits, Nat.add_zero]
    simp only [State.At, idle] at place
    rw [stops, ← released]
    rcases inv.fills with ⟨le, at_offset, rest⟩ | ⟨beyond, -⟩
    · have below := Nat.mul_le_mul_right mtu le
      cases held : s.remainderHandle with
      | none =>
        have off := inv.free held
        have edge : samples.length % mtu = 0 :=
          Nat.mod_eq_zero_of_dvd ⟨s.released, by rw [Nat.mul_comm]; omega⟩
        omega
      | some handle =>
        have some_samps := place.2 (by rw [held]; nofun)
        have rest := rest (by rw [held]; nofun)
        omega
    · exact beyond

/-- A burst with a last part goes out as announced, if nothing is left of an earlier transmission
    and each writer waits in front of the last buffer, which must be clear. -/
theorem burst_transmitted (samples : List α) {start s : State buf_num MTU α}
    (fresh : Fresh samples start)
    (run : Runs (Step samples) (Meets samples) (start.activateStream samples.length) s) :
    Transmitted samples s := by
  have sizes : Sizes MTU samples := ⟨by decide, by decide, fresh.part, fresh.short⟩
  exact (run.keeps (fun _ _ _ inv meets step => inv.step sizes meets step)
    (Inv.start fresh)).transmitted sizes

def quiet : State 1 MTU Int :=
  { buf := fun _ _ => 0
    buf_head := 0
    buf_tail := 0
    buf_count := 0
    underflow := false
    remainderHandle := none
    remainderSamps := 0
    remainderOffset := 0
    burst_end := false
    burst_samps := 0
    place := .idle
    supplied := 0
    transfers := []
    stopped := false }

theorem burst_transmitted_one :
    ∃ s : State 1 MTU Int, s.stopped = true ∧ Transmitted [5] s := by
  have fresh : Fresh [5] quiet := ⟨rfl, rfl, ⟨rfl, rfl⟩, by decide, by decide⟩
  have written := (Runs.refl : Runs (Step [5]) (Meets [5]) (quiet.activateStream 1) _)
    |>.tail (a := Act.writeStream 1) (.writeStream rfl (by decide))
    |>.tail (.no_remainder rfl rfl)
    |>.tail (.acquire rfl (by decide)) (fun _ _ _ _ _ => ⟨rfl, fun _ _ _ => rfl⟩)
  have sent := written.tail (.copy rfl rfl)
    |>.tail (.release rfl)
    |>.tail .callback
  exact ⟨_, rfl, burst_transmitted [5] fresh sent⟩

/-- A burst of one buffer is not ended: nothing is left of it, and not less. -/
theorem never_stopped :
    ∃ (samples : List Int) (s : State 1 MTU Int), 1 ≤ samples.length ∧
      Runs (Step samples) (fun _ _ => True) (quiet.activateStream samples.length) s ∧
        s.supplied = samples.length ∧ s.buf_count = 0 ∧ s.burst_end = true ∧
          ¬ Transmitted samples s := by
  have length : (List.replicate MTU (1 : Int)).length = MTU := List.length_replicate
  generalize List.replicate MTU (1 : Int) = samples at length
  have written := (Runs.refl : Runs (Step samples) (fun _ _ => True) (quiet.activateStream MTU) _)
    |>.tail (a := Act.writeStream MTU) (.writeStream rfl (by rw [length]; decide))
    |>.tail (.no_remainder rfl rfl)
    |>.tail (.acquire rfl (by decide))
  have sent := written.tail (.copy rfl rfl)
    |>.tail (.release rfl)
    |>.tail .callback
  obtain ⟨s, run, idle, supplied, none_waits, burst_end, going⟩ :
      ∃ s, Runs (Step samples) (fun _ _ => True) (quiet.activateStream MTU) s ∧ s.place = .idle ∧
        s.supplied = MTU ∧ s.buf_count = 0 ∧ s.burst_end = true ∧ s.stopped = false :=
    ⟨_, sent, rfl, rfl, rfl, rfl, rfl⟩
  have announced : quiet.activateStream samples.length = quiet.activateStream MTU := by rw [length]
  have all : s.supplied = samples.length := supplied.trans length.symm
  refine ⟨samples, s, by rw [length]; decide, by rw [announced]; exact run, all, none_waits, burst_end, ?_⟩
  intro transmitted
  cases (transmitted.all idle all none_waits).symm.trans going

end Soapy.Transmit.HackRF
