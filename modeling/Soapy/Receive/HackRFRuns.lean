import Soapy.Lib.SampleQueue
import Soapy.Receive.HackRF

/-! # What the reader of a HackRF gets

While no buffer is acquired the transfers that wait stand in the ring from the head on. A
transfer that arrives while one is acquired would be stored one slot too far.
-/

namespace Soapy.Receive.HackRF

open Lib HandleRing

variable {buf_num mtu : Nat} [NeZero buf_num] {α : Type}

def total (bs : List (Block α)) : Nat := (bs.map fun b => b.data.length).sum

theorem total_push (bs : List (Block α)) (b : Block α) :
    total (bs ++ [b]) = total bs + b.data.length := by
  simp [total]

def State.holds (s : State buf_num α) : Nat :=
  match s.remainderHandle with
  | some _ => 1
  | none => 0

/-- The rest of the acquired buffer. -/
def State.rest (s : State buf_num α) : List (Block α) :=
  match s.remainderHandle with
  | some handle => [(s.buf handle).drop s.remainderOffset]
  | none => []

/-- The transfers that wait for the reader. -/
def State.queue (s : State buf_num α) : List (Block α) :=
  RingQueue.stored s.buf s.buf_head (s.buf_count - s.holds)

/-- What the reader saw, with what the call that is in progress copied. -/
def State.seen (s : State buf_num α) : List (Seen α) :=
  match s.place with
  | .idle => s.log
  | _ => s.log ++ s.copied.map .samples

def State.At (mtu : Nat) (s : State buf_num α) : Prop :=
  match s.place with
  | .idle => (s.remainderHandle ≠ none → 0 < s.remainderSamps) ∧
      ∀ ret, s.returned = some ret → total s.copied = ret
  | .reads r => (s.remainderHandle ≠ none → 0 < s.remainderSamps) ∧ r ≤ mtu ∧ s.copied = []
  | .releases_remainder r n => s.remainderHandle ≠ none ∧ s.remainderSamps = 0 ∧ r ≤ mtu ∧
      total s.copied = n ∧ 0 < n ∧ n ≤ r
  | .acquires r n => s.remainderHandle = none ∧ r ≤ mtu ∧ total s.copied = n ∧ n ≤ r ∧
      (n = 0 → s.copied = []) ∧ (0 < n → s.overflow = false)
  | .copies r n => s.remainderHandle ≠ none ∧ s.remainderSamps = mtu ∧ s.remainderOffset = 0 ∧
      r ≤ mtu ∧ total s.copied = n ∧ n ≤ r
  | .releases r => s.remainderHandle ≠ none ∧ s.remainderSamps = 0 ∧ total s.copied = r

structure Inv (mtu : Nat) (s : State buf_num α) : Prop where
  held : s.holds ≤ s.buf_count
  room : s.buf_count ≤ buf_num
  fresh : ∀ k, k < s.buf_count - s.holds → s.fresh (slot s.buf_head k) = true
  untouched : s.overwritten = false
  current : s.stale = false
  whole : mtu ∣ s.arrived.length
  transfers : ∀ b ∈ s.queue, mtu ∣ b.start ∧ b.data.length = mtu
  acquired : ∀ handle, s.remainderHandle = some handle → s.overflow = false ∧
    s.remainderOffset + s.remainderSamps = (s.buf handle).data.length
  free : s.remainderHandle = none → s.remainderOffset = 0
  ready : Ready (mtu ∣ ·) s.arrived s.seen s.overflow (s.rest ++ s.queue) s.arrived.length
  place : s.At mtu

theorem Inv.start : Inv mtu (State.start : State buf_num α) := by
  constructor
  · exact Nat.le_refl 0
  · exact Nat.zero_le _
  · nofun
  · rfl
  · rfl
  · exact Nat.dvd_zero mtu
  · nofun
  · nofun
  · intro _
    rfl
  · exact Ready.start
  · exact ⟨fun some => absurd rfl some, nofun⟩

section Steps

variable {s s' : State buf_num α}

section

variable (inv : Inv mtu s)
include inv

theorem Inv.stores {data : List α} (full_length : data.length = mtu)
    (none : s.remainderHandle = none) (head : Fin buf_num) (count : Nat) (overflow : Bool)
    (room : count ≤ buf_num) (fresh : ∀ k, k < count → (s.memcpy data).fresh (slot head k) = true)
    (transfers : ∀ b ∈ RingQueue.stored (s.memcpy data).buf head count,
      mtu ∣ b.start ∧ b.data.length = mtu)
    (ready : Ready (mtu ∣ ·) (s.arrived ++ data) s.seen overflow
      (RingQueue.stored (s.memcpy data).buf head count) (s.arrived ++ data).length)
    (place : State.At mtu { s with overflow := overflow }) :
    Inv mtu { s.memcpy data with overflow := overflow, buf_head := head, buf_count := count } := by
  let s' : State buf_num α :=
    { s.memcpy data with overflow := overflow, buf_head := head, buf_count := count }
  have none' : s'.remainderHandle = Option.none := none
  have zero : s'.holds = 0 := by simp only [State.holds, none']
  have rest : s'.rest = [] := by simp only [State.rest, none']
  have queue : s'.queue = RingQueue.stored (s.memcpy data).buf head count := by
    simp only [State.queue, zero]
    rfl
  change Inv mtu s'
  constructor
  · rw [zero]
    exact Nat.zero_le _
  · exact room
  · rw [zero]
    exact fresh
  · change (s.overwritten || decide (s.remainderHandle = some (slot s.buf_head s.buf_count))) = false
    rw [inv.untouched, none]
    rfl
  · exact inv.current
  · change mtu ∣ (s.arrived ++ data).length
    rw [List.length_append, full_length]
    exact Nat.dvd_add inv.whole (Nat.dvd_refl mtu)
  · rw [queue]
    exact transfers
  · intro handle some
    cases none'.symm.trans some
  · exact inv.free
  · rw [rest, List.nil_append, queue]
    exact ready
  · exact place

theorem Inv.arrives {data : List α} (full_length : data.length = mtu)
    (meets : Meets s (.arrive data)) : Inv mtu (s.hackrf_rx_callback data) := by
  obtain ⟨none, apart⟩ := meets
  have zero : s.holds = 0 := by simp only [State.holds, none]
  have rest : s.rest = [] := by simp only [State.rest, none]
  have queue : s.queue = RingQueue.stored s.buf s.buf_head s.buf_count := by
    simp [State.queue, zero]
  have ready := inv.ready
  have transfers := inv.transfers
  have fresh := inv.fresh
  rw [rest, List.nil_append, queue] at ready
  rw [queue] at transfers
  rw [zero, Nat.sub_zero] at fresh
  let b : Block α := ⟨s.arrived.length, data⟩
  have new : mtu ∣ b.start ∧ b.data.length = mtu := ⟨inv.whole, full_length⟩
  unfold State.hackrf_rx_callback
  by_cases full : s.buf_count = buf_num
  · rw [if_pos full]
    have positive : 0 < buf_num := Nat.pos_of_ne_zero (NeZero.ne buf_num)
    -- The oldest transfer gives its slot to the new one.
    have first : RingQueue.stored s.buf s.buf_head s.buf_count =
        s.buf s.buf_head :: RingQueue.stored s.buf (slot s.buf_head 1) (buf_num - 1) := by
      rw [full, RingQueue.stored_of_pos positive]
    have behind : slot (slot s.buf_head 1) (buf_num - 1) = slot s.buf_head s.buf_count := by
      rw [slot_slot, Nat.add_sub_of_le positive, full]
    have stored : RingQueue.stored (s.memcpy data).buf (slot s.buf_head 1) s.buf_count =
        RingQueue.stored s.buf (slot s.buf_head 1) (buf_num - 1) ++ [b] := by
      have count : s.buf_count = buf_num - 1 + 1 := by omega
      rw [← RingQueue.stored_push s.buf (slot s.buf_head 1) (by omega) b, behind, ← count]
      rfl
    rw [first] at ready transfers
    have oldest := transfers _ List.mem_cons_self
    have edge : mtu ∣ (s.buf s.buf_head).stop := by
      unfold Block.stop
      rw [oldest.2]
      exact Nat.dvd_add oldest.1 (Nat.dvd_refl mtu)
    apply inv.stores full_length none (slot s.buf_head 1) s.buf_count true inv.room
    · intro k below
      change Function.update s.fresh (slot s.buf_head s.buf_count) true (slot (slot s.buf_head 1) k) = true
      by_cases last : slot (slot s.buf_head 1) k = slot s.buf_head s.buf_count
      · rw [last, Function.update_self]
      · rw [Function.update_of_ne last, slot_slot]
        apply fresh
        by_contra beyond
        have same : k = buf_num - 1 := by omega
        rw [same] at last
        exact last behind
    · rw [stored]
      intro c member
      rcases List.mem_append.mp member with old | last
      · exact transfers c (List.mem_cons_of_mem _ old)
      · obtain rfl := List.mem_singleton.mp last
        exact new
    · rw [stored]
      exact (ready.skip oldest.1 edge).arrives
    · have place := inv.place
      unfold State.At at place ⊢
      split
      all_goals rename_i at_p; change s.place = _ at at_p; simp only [at_p] at place
      · exact place
      · exact place
      · exact place
      · obtain ⟨-, le, copied, within, nothing, -⟩ := place
        exact ⟨none, le, copied, within, nothing, fun some => absurd full (apart _ _ at_p some)⟩
      · exact place
      · exact place
  · rw [if_neg full]
    have room : s.buf_count < buf_num := Nat.lt_of_le_of_ne inv.room full
    have stored : RingQueue.stored (s.memcpy data).buf s.buf_head (s.buf_count + 1) =
        RingQueue.stored s.buf s.buf_head s.buf_count ++ [b] :=
      RingQueue.stored_push s.buf s.buf_head room b
    apply inv.stores full_length none s.buf_head (s.buf_count + 1) s.overflow room
    · intro k below
      change Function.update s.fresh (slot s.buf_head s.buf_count) true (slot s.buf_head k) = true
      by_cases last : slot s.buf_head k = slot s.buf_head s.buf_count
      · rw [last, Function.update_self]
      · rw [Function.update_of_ne last]
        apply fresh
        by_contra beyond
        have same : k = s.buf_count := by omega
        rw [same] at last
        exact last rfl
    · rw [stored]
      intro c member
      rcases List.mem_append.mp member with old | last
      · exact transfers c old
      · obtain rfl := List.mem_singleton.mp last
        exact new
    · rw [stored]
      exact ready.arrives
    · exact inv.place

theorem Inv.stays
    (ring : s'.buf = s.buf ∧ s'.buf_head = s.buf_head ∧ s'.buf_count = s.buf_count ∧
      s'.fresh = s.fresh ∧ s'.overwritten = s.overwritten ∧ s'.stale = s.stale ∧
      s'.arrived = s.arrived)
    (handle : s'.remainderHandle = s.remainderHandle)
    (acquired : ∀ handle, s.remainderHandle = some handle → s'.overflow = false ∧
      s'.remainderOffset + s'.remainderSamps = (s.buf handle).data.length)
    (free : s.remainderHandle = none → s'.remainderOffset = 0)
    (ready : Ready (mtu ∣ ·) s.arrived s'.seen s'.overflow (s'.rest ++ s.queue) s.arrived.length)
    (place : s'.At mtu) : Inv mtu s' := by
  obtain ⟨buf, head, count, fresh, overwritten, stale, arrived⟩ := ring
  have holds : s'.holds = s.holds := by simp only [State.holds, handle]
  have queue : s'.queue = s.queue := by simp only [State.queue, buf, head, count, holds]
  constructor
  · rw [holds, count]
    exact inv.held
  · rw [count]
    exact inv.room
  · rw [holds, count, fresh, head]
    exact inv.fresh
  · rw [overwritten]
    exact inv.untouched
  · rw [stale]
    exact inv.current
  · rw [arrived]
    exact inv.whole
  · rw [queue]
    exact inv.transfers
  · rw [handle, buf]
    exact acquired
  · rw [handle]
    exact free
  · rw [arrived, queue]
    exact ready
  · exact place

theorem Inv.moves
    (ring : s'.buf = s.buf ∧ s'.buf_head = s.buf_head ∧ s'.buf_count = s.buf_count ∧
      s'.fresh = s.fresh ∧ s'.overwritten = s.overwritten ∧ s'.stale = s.stale ∧
      s'.arrived = s.arrived)
    (remainder : s'.remainderHandle = s.remainderHandle ∧
      s'.remainderOffset = s.remainderOffset ∧ s'.remainderSamps = s.remainderSamps ∧
      s'.overflow = s.overflow)
    (ready : Ready (mtu ∣ ·) s.arrived s'.seen s.overflow (s'.rest ++ s.queue) s.arrived.length)
    (place : s'.At mtu) : Inv mtu s' := by
  obtain ⟨handle, offset, samps, overflow⟩ := remainder
  apply inv.stays ring handle
  · rw [overflow, offset, samps]
    exact inv.acquired
  · rw [offset]
    exact inv.free
  · rw [overflow]
    exact ready
  · exact place

omit inv in
omit [NeZero buf_num] in
theorem State.seen_of_busy (busy : s.place ≠ .idle) : s.seen = s.log ++ s.copied.map .samples := by
  unfold State.seen
  split
  · rename_i idle
    exact absurd idle busy
  · rfl

theorem Inv.readbuf_total {handle : Fin buf_num} {offset n : Nat}
    (some : s.remainderHandle = some handle) (here : offset = s.remainderOffset)
    (within : n ≤ s.remainderSamps) :
    total (s.readbuf handle offset n).copied = total s.copied + n := by
  obtain ⟨-, elems⟩ := inv.acquired handle some
  subst here
  change total (s.copied ++ [_]) = _
  rw [total_push]
  simp only [Block.take, Block.drop, List.length_take, List.length_drop]
  omega

theorem Inv.readbuf {handle : Fin buf_num} {offset n : Nat} {place : Place} {returned : Option Nat}
    {log : List (Seen α)} (some : s.remainderHandle = some handle)
    (here : offset = s.remainderOffset) (within : n ≤ s.remainderSamps) (busy : s.place ≠ .idle)
    (seen : State.seen { s.readbuf handle offset n with
      place := place, returned := returned, log := log } =
      s.log ++ (s.readbuf handle offset n).copied.map .samples)
    (at_p : State.At mtu { s.readbuf handle offset n with
      place := place, returned := returned, log := log }) :
    Inv mtu { s.readbuf handle offset n with place := place, returned := returned, log := log } := by
  subst here
  obtain ⟨off, elems⟩ := inv.acquired handle some
  have rest : s.rest = [(s.buf handle).drop s.remainderOffset] := by simp only [State.rest, some]
  have rest' : State.rest { s.readbuf handle s.remainderOffset n with
      place := place, returned := returned, log := log } =
      [((s.buf handle).drop s.remainderOffset).drop n] := by
    rw [Block.take_drop]
    change State.rest { s with remainderOffset := s.remainderOffset + n } = _
    simp only [State.rest, some]
  have ready := inv.ready
  rw [off, rest, State.seen_of_busy busy] at ready
  have more := ready.read (k := n) (by
    simp only [Block.drop, List.length_drop]
    omega)
  apply Inv.stays inv
  · exact ⟨rfl, rfl, rfl, rfl, rfl, rfl, rfl⟩
  · rfl
  · intro handle' some'
    obtain rfl := Option.some.inj (some.symm.trans some')
    refine ⟨off, ?_⟩
    change s.remainderOffset + n + (s.remainderSamps - n) = _
    omega
  · intro none
    cases none.symm.trans some
  · rw [seen, rest']
    change Ready _ _ (s.log ++ (s.copied ++ [_]).map .samples) s.overflow _ _
    rw [off, List.map_append, ← List.append_assoc]
    exact more
  · exact at_p

theorem Inv.releases {place : Place} {returned : Option Nat} {log : List (Seen α)}
    (some : s.remainderHandle ≠ none) (done : s.remainderSamps = 0)
    (seen : State.seen { s.releaseReadBuffer with
      place := place, returned := returned, log := log } = s.seen)
    (at_p : State.At mtu { s.releaseReadBuffer with
      place := place, returned := returned, log := log }) :
    Inv mtu { s.releaseReadBuffer with place := place, returned := returned, log := log } := by
  obtain ⟨handle, some⟩ := Option.ne_none_iff_exists'.mp some
  obtain ⟨off, elems⟩ := inv.acquired handle some
  have one : s.holds = 1 := by simp only [State.holds, some]
  have queue : State.queue { s.releaseReadBuffer with
      place := place, returned := returned, log := log } = s.queue := by
    simp only [State.queue, one]
    rfl
  have rest : s.rest = [(s.buf handle).drop s.remainderOffset] := by simp only [State.rest, some]
  have none : ((s.buf handle).drop s.remainderOffset).data = [] := by
    rw [done] at elems
    exact List.drop_eq_nil_of_le (Nat.le_of_eq elems.symm)
  have ready := inv.ready
  have fresh := inv.fresh
  have room := inv.room
  rw [rest] at ready
  rw [one] at fresh
  constructor
  · exact Nat.zero_le _
  · change s.buf_count - 1 ≤ buf_num
    omega
  · exact fresh
  · exact inv.untouched
  · exact inv.current
  · exact inv.whole
  · rw [queue]
    exact inv.transfers
  · rintro _ ⟨⟩
  · intro _
    rfl
  · rw [queue, seen]
    exact ready.finish none
  · exact at_p

theorem Inv.acquires {r samp_avail : Nat} (at_p : s.place = .acquires r samp_avail)
    (filled : s.buf_count ≠ 0) (off : s.overflow = false) :
    Inv mtu { s with
      place := .copies r samp_avail
      remainderHandle := some s.buf_head
      remainderSamps := mtu
      buf_head := slot s.buf_head 1
      fresh := Function.update s.fresh s.buf_head false
      stale := s.stale || !s.fresh s.buf_head } := by
  have place := inv.place
  simp only [State.At, at_p] at place
  obtain ⟨none, le, copied, within, -, -⟩ := place
  have zero : s.holds = 0 := by simp only [State.holds, none]
  have positive := Nat.pos_of_ne_zero filled
  have room := inv.room
  have offset := inv.free none
  let s' : State buf_num α := { s with
    place := .copies r samp_avail
    remainderHandle := Option.some s.buf_head
    remainderSamps := mtu
    buf_head := slot s.buf_head 1
    fresh := Function.update s.fresh s.buf_head false
    stale := s.stale || !s.fresh s.buf_head }
  have queue : s.queue = s.buf s.buf_head :: s'.queue := by
    simp only [State.queue, zero, Nat.sub_zero]
    rw [RingQueue.stored_of_pos positive]
    rfl
  have rest : s.rest = [] := by simp only [State.rest, none]
  have fresh := inv.fresh
  have first := fresh 0 (by omega)
  have ready := inv.ready
  have transfers := inv.transfers
  rw [slot_zero] at first
  rw [rest, queue] at ready
  rw [queue] at transfers
  rw [zero, Nat.sub_zero] at fresh
  change Inv mtu s'
  constructor
  · exact positive
  · exact room
  · intro k below
    change k < s.buf_count - 1 at below
    change Function.update s.fresh s.buf_head false (slot (slot s.buf_head 1) k) = true
    have apart : slot (slot s.buf_head 1) k ≠ s.buf_head := by
      intro same
      rw [slot_slot] at same
      have wrapped := slot_inj (by omega) (by omega) (same.trans (slot_zero s.buf_head).symm)
      omega
    rw [Function.update_of_ne apart, slot_slot]
    apply fresh
    omega
  · exact inv.untouched
  · change (s.stale || !s.fresh s.buf_head) = false
    rw [inv.current, first]
    rfl
  · exact inv.whole
  · intro b member
    exact transfers b (List.mem_cons_of_mem _ member)
  · intro handle same
    obtain rfl := Option.some.inj same
    refine ⟨off, ?_⟩
    change s.remainderOffset + mtu = (s.buf s.buf_head).data.length
    rw [offset, (transfers _ List.mem_cons_self).2, Nat.zero_add]
  · rintro ⟨⟩
  · have seen : s'.seen = s.seen := by
      rw [State.seen_of_busy (s := s') (by rintro ⟨⟩), State.seen_of_busy (by rw [at_p]; rintro ⟨⟩)]
    have rest' : s'.rest = [s.buf s.buf_head] := by
      change [(s.buf s.buf_head).drop s.remainderOffset] = _
      rw [offset, Block.drop_zero]
    rw [seen, rest']
    exact ready
  · exact ⟨(by rintro ⟨⟩), rfl, offset, le, copied, within⟩

end

end Steps

theorem Inv.step {s s' : State buf_num α} {a : Act α} (inv : Inv mtu s) (meets : Meets s a)
    (step : Step mtu s a s') : Inv mtu s' := by
  have place := inv.place
  unfold State.At at place
  cases step with
  | arrive full_length => exact inv.arrives full_length meets
  | @readStream numElems at_p =>
    simp only [at_p] at place
    apply inv.moves
    · exact ⟨rfl, rfl, rfl, rfl, rfl, rfl, rfl⟩
    · exact ⟨rfl, rfl, rfl, rfl⟩
    · have seen : s.seen = s.log := by simp only [State.seen, at_p]
      have ready := inv.ready
      rw [seen] at ready
      change Ready _ _ (s.log ++ []) _ _ _
      rw [List.append_nil]
      exact ready
    · exact ⟨place.1, Nat.min_le_right _ _, rfl⟩
  | @read_remainder r handle at_p some =>
    simp only [at_p] at place
    obtain ⟨unread, le, nothing⟩ := place
    have positive := unread (by rw [some]; nofun)
    have busy : s.place ≠ .idle := by rw [at_p]; nofun
    have within : min s.remainderSamps r ≤ s.remainderSamps := Nat.min_le_left _ _
    have length := inv.readbuf_total some rfl within
    rw [nothing] at length
    simp only [total, List.map_nil, List.sum_nil, Nat.zero_add] at length
    by_cases done : s.remainderSamps - min s.remainderSamps r = 0
    · rw [if_pos done]
      apply inv.readbuf some rfl within busy
      · exact State.seen_of_busy nofun
      · refine ⟨?_, done, le, length, by omega, Nat.min_le_right _ _⟩
        change s.remainderHandle ≠ none
        rw [some]
        nofun
    · have all : min s.remainderSamps r = r := by omega
      rw [if_neg done]
      unfold State.remainder_read
      rw [if_pos all]
      apply inv.readbuf some rfl within busy rfl
      refine ⟨fun _ => Nat.pos_of_ne_zero done, ?_⟩
      intro ret same
      obtain rfl := Option.some.inj same
      exact length.trans all
  | no_remainder at_p none =>
    simp only [at_p] at place
    obtain ⟨-, le, nothing⟩ := place
    apply inv.moves
    · exact ⟨rfl, rfl, rfl, rfl, rfl, rfl, rfl⟩
    · exact ⟨rfl, rfl, rfl, rfl⟩
    · have ready := inv.ready
      rw [State.seen_of_busy (by rw [at_p]; nofun)] at ready
      exact ready
    · refine ⟨none, le, ?_, Nat.zero_le _, fun _ => nothing, nofun⟩
      change total s.copied = 0
      rw [nothing]
      rfl
  | @release_remainder r n at_p =>
    simp only [at_p] at place
    obtain ⟨some, done, le, copied, positive, within⟩ := place
    have seen := State.seen_of_busy (s := s) (by rw [at_p]; nofun)
    unfold State.remainder_read
    by_cases all : n = r
    · rw [if_pos all]
      apply inv.releases some done
      · exact seen.symm
      · refine ⟨nofun, ?_⟩
        intro ret same
        obtain rfl := Option.some.inj same
        exact copied.trans all
    · have below : n < r := Nat.lt_of_le_of_ne within all
      obtain ⟨handle, some'⟩ := Option.ne_none_iff_exists'.mp some
      have off := (inv.acquired handle some').1
      rw [if_neg all, if_pos below]
      apply inv.releases some done
      · rw [seen]
        exact State.seen_of_busy nofun
      · exact ⟨rfl, le, copied, within, fun zero => absurd zero (Nat.ne_of_gt positive),
          fun _ => off⟩
  | @timeout r n at_p empty =>
    simp only [at_p] at place
    obtain ⟨none, le, copied, within, nothing, -⟩ := place
    have ready := inv.ready
    rw [State.seen_of_busy (by rw [at_p]; nofun)] at ready
    by_cases some : 0 < n
    · rw [if_pos some]
      apply inv.moves
      · exact ⟨rfl, rfl, rfl, rfl, rfl, rfl, rfl⟩
      · exact ⟨rfl, rfl, rfl, rfl⟩
      · exact ready
      · refine ⟨fun held => absurd none held, ?_⟩
        intro ret same
        obtain rfl := Option.some.inj same
        exact copied
    · rw [if_neg some]
      rw [nothing (by omega), List.map_nil, List.append_nil] at ready
      apply inv.moves
      · exact ⟨rfl, rfl, rfl, rfl, rfl, rfl, rfl⟩
      · exact ⟨rfl, rfl, rfl, rfl⟩
      · exact ready
      · exact ⟨fun held => absurd none held, nofun⟩
  | @return_overflow r n at_p filled on =>
    simp only [at_p] at place
    obtain ⟨none, le, copied, within, nothing, kept⟩ := place
    have zero : n = 0 := by
      by_contra some
      cases on.symm.trans (kept (Nat.pos_of_ne_zero some))
    have ready := inv.ready
    rw [State.seen_of_busy (by rw [at_p]; nofun), nothing zero, List.map_nil, List.append_nil,
      on] at ready
    apply Inv.stays inv
    · exact ⟨rfl, rfl, rfl, rfl, rfl, rfl, rfl⟩
    · rfl
    · intro handle some
      cases none.symm.trans some
    · exact inv.free
    · exact ready.tell
    · exact ⟨fun held => absurd none held, nofun⟩
  | acquire at_p filled off => exact inv.acquires at_p filled off
  | @copy r n handle at_p some =>
    simp only [at_p] at place
    obtain ⟨held, samps, offset, le, copied, within⟩ := place
    have busy : s.place ≠ .idle := by rw [at_p]; nofun
    have short : min (r - n) s.remainderSamps ≤ s.remainderSamps := Nat.min_le_right _ _
    have length := inv.readbuf_total some offset.symm short
    have all : total (s.readbuf handle 0 (min (r - n) s.remainderSamps)).copied = r := by
      rw [length, copied]
      omega
    by_cases done : s.remainderSamps - min (r - n) s.remainderSamps = 0
    · rw [if_pos done]
      apply inv.readbuf some offset.symm short busy
      · exact State.seen_of_busy nofun
      · exact ⟨held, done, all⟩
    · rw [if_neg done]
      apply inv.readbuf some offset.symm short busy rfl
      refine ⟨fun _ => Nat.pos_of_ne_zero done, ?_⟩
      intro ret same
      obtain rfl := Option.some.inj same
      exact all
  | release at_p =>
    simp only [at_p] at place
    obtain ⟨some, done, copied⟩ := place
    have seen := State.seen_of_busy (s := s) (by rw [at_p]; nofun)
    apply inv.releases some done
    · exact seen.symm
    · refine ⟨nofun, ?_⟩
      intro ret same
      obtain rfl := Option.some.inj same
      exact copied

/-- The transfers are read in order, whole ones missing only behind an overflow. No acquired slot
    was overwritten, only fresh ones were handed out, and a call returns as much as it copied. -/
theorem transfers_in_order {s : State buf_num α} (run : Runs (Step mtu) Meets State.start s) :
    (∃ pos free, InOrder (mtu ∣ ·) s.arrived s.log pos free) ∧
    s.overwritten = false ∧ s.stale = false ∧
    (s.place = .idle → ∀ ret, s.returned = some ret → total s.copied = ret) := by
  have inv : Inv mtu s :=
    run.keeps (fun _ _ _ inv meets step => inv.step meets step) Inv.start
  refine ⟨?_, inv.untouched, inv.current, ?_⟩
  · obtain ⟨pos, free, order⟩ := inv.ready.in_order
    unfold State.seen at order
    split at order
    · exact ⟨pos, free, order⟩
    · exact order.of_append
  · intro idle
    have place := inv.place
    simp only [State.At, idle] at place
    exact place.2

theorem transfer_read : ∃ s : State 2 Nat, Runs (Step 2) Meets State.start s ∧
    s.returned = some 1 ∧ total s.copied = 1 ∧
    ∃ pos free, InOrder (2 ∣ ·) s.arrived [.samples ⟨0, [10]⟩, .samples ⟨1, [11]⟩] pos free := by
  have start : Runs (Step 2) Meets (State.start : State 2 Nat) State.start := .refl
  have released := start
    |>.tail (a := Act.arrive [10, 11]) (.arrive rfl) ⟨rfl, nofun⟩
    |>.tail (a := Act.readStream 1) (.readStream rfl)
    |>.tail (a := Act.no_remainder) (.no_remainder rfl rfl)
    |>.tail (a := Act.acquire) (.acquire rfl nofun rfl)
    |>.tail (a := Act.copy) (.copy rfl rfl)
    |>.tail (a := Act.readStream 1) (.readStream rfl)
    |>.tail (a := Act.read_remainder) (.read_remainder rfl rfl)
    |>.tail (a := Act.release_remainder) (.release_remainder rfl)
  have ordered := transfers_in_order released
  exact ⟨_, released, rfl, ordered.2.2.2 rfl 1 rfl, ordered.1⟩

/-- A transfer that arrives while the first one is acquired overwrites it, and the next slot handed
    out is empty. An overflow behind the release of a remainder loses its samples. -/
theorem transfers_break :
    (∃ s : State 2 Nat, Runs (Step 2) (fun _ _ => True) State.start s ∧
      s.overwritten = true ∧ s.stale = true ∧
      ¬ ∃ pos free, InOrder (2 ∣ ·) s.arrived s.log pos free) ∧
    ∃ s : State 2 Nat, Runs (Step 2) (fun _ _ => True) State.start s ∧
      ¬ ∃ pos free, InOrder (2 ∣ ·) s.arrived s.log pos free := by
  have start : Runs (Step 2) (fun _ _ => True) (State.start : State 2 Nat) State.start := .refl
  have arrived := start.tail (a := Act.arrive [10, 11]) (.arrive rfl)
  have called := arrived.tail (a := Act.readStream 1) (.readStream rfl)
  have fresh := called.tail (.no_remainder rfl rfl)
  have acquired := fresh.tail (.acquire rfl nofun rfl)
  have copied := acquired.tail (.copy rfl rfl)
  constructor
  · have arrived := copied.tail (a := Act.arrive [12, 13]) (.arrive rfl)
    have remainder := arrived
      |>.tail (a := Act.readStream 1) (.readStream rfl)
      |>.tail (.read_remainder rfl rfl)
    have released := remainder.tail (.release_remainder rfl)
    have called := released.tail (a := Act.readStream 1) (.readStream rfl)
    have acquired := called
      |>.tail (.no_remainder rfl rfl)
      |>.tail (.acquire rfl nofun rfl)
    refine ⟨_, acquired, rfl, rfl, ?_⟩
    rintro ⟨pos, free, order⟩
    obtain ⟨pos', free', before, follows, -, -⟩ :=
      InOrder.before_samples [.samples ⟨0, [10]⟩] order
    obtain ⟨-, -, -, -, stop, tight⟩ := InOrder.before_samples [] before
    rw [stop] at follows
    exact absurd (follows.exactly tight) (by decide)
  · have called := copied.tail (a := Act.readStream 2) (.readStream rfl)
    have overflow := called
      |>.tail (.read_remainder rfl rfl)
      |>.tail (.release_remainder rfl)
      |>.tail (a := Act.arrive [12, 13]) (.arrive rfl)
      |>.tail (a := Act.arrive [14, 15]) (.arrive rfl)
      |>.tail (a := Act.arrive [16, 17]) (.arrive rfl)
      |>.tail (.return_overflow rfl nofun rfl)
    refine ⟨_, overflow, ?_⟩
    rintro ⟨pos, free, order⟩
    obtain ⟨free', before, whole⟩ := InOrder.before_gap [.samples ⟨0, [10]⟩] order
    obtain ⟨-, -, -, -, stop, -⟩ := InOrder.before_samples [] before
    rw [stop] at whole
    exact absurd whole (by decide)

end Soapy.Receive.HackRF
