import Soapy.Receive.RTLSDRRuns

/-! # The times of the RTL-SDR stream

The callback counts in `ticks` what it is given and keeps the count of each buffer with it, and
`readStream` makes its time of that count. The steps are those of the ring.
-/

namespace Soapy.Receive.RTLSDR

open Lib HandleRing

variable {n : Nat} [NeZero n] {α : Type}

def BYTES_PER_SAMPLE : Nat := 2

/-- What a call of `readStream` returned samples of: `count` samples from `offset` on, at the time
of `ticks`. -/
structure Read (α : Type) where
  buff : Block α
  offset : Nat
  count : Nat
  ticks : Nat

def Read.block (r : Read α) : Block α := (r.buff.drop r.offset).take r.count

/-- The counts beside the ring: `tick` is kept with each buffer, `stores` is the `tick` of the
callback, and `time` is what the running call makes its time of. -/
structure Ticked (n : Nat) (α : Type) where
  state : State n α
  ticks : Nat
  tick : Fin n → Nat
  stores : Nat
  bufTicks : Nat
  time : Nat
  reads : List (Read α)

def Ticked.start : Ticked n α :=
  { state := .start, ticks := 0, tick := fun _ => 0, stores := 0, bufTicks := 0, time := 0, reads := [] }

def Ticked.count (t : Ticked n α) : Act α → Ticked n α
  | .arrive data =>
    { t with stores := t.ticks, ticks := t.ticks + BYTES_PER_SAMPLE * data.length }
  | .store => { t with tick := Function.update t.tick t.state.buf_tail t.stores }
  | .keep_remainder => if t.state.bufferedElems = 0 then t else { t with time := t.bufTicks }
  | .acquire => { t with bufTicks := t.tick t.state.buf_head, time := t.tick t.state.buf_head }
  | .copy =>
    match t.state.place with
    | .copies numElems =>
      let returnedElems := min t.state.bufferedElems numElems
      { t with
        bufTicks := t.bufTicks + returnedElems
        reads := t.reads ++
          [⟨t.state.buffs t.state.currentHandle, t.state.currentBuff, returnedElems, t.time⟩] }
    | _ => t
  | _ => t

def TickStep (t : Ticked n α) (a : Act α) (t' : Ticked n α) : Prop :=
  Step t.state a t'.state ∧ t' = { t.count a with state := t'.state }

def Calm (t : Ticked n α) (a : Act α) : Prop :=
  a = .activateStream → t.state.bufferedElems = 0

/-- The time is made of the number of samples that arrived before the first one returned. -/
def Read.Right (r : Read α) : Prop := r.block.data ≠ [] → r.ticks = r.block.start

/-- Where a call has made its time. -/
def Place.Timed : Place → Prop
  | .copies _ => True
  | _ => False

/-- The counts are in bytes up to the start of a buffer, and in samples inside. -/
structure TickInv (t : Ticked n α) : Prop where
  ring : Ring t.state
  ticks : t.ticks = 2 * t.state.arrived.length
  tick : ∀ i, t.tick i = 2 * (t.state.buffs i).start
  stores : ∀ b, t.state.callback = .stores b → t.stores = 2 * b.start
  held : t.state.holds = 1 →
    t.bufTicks = 2 * (t.state.buffs t.state.currentHandle).start + t.state.currentBuff
  time : t.state.place.Timed → t.time = t.bufTicks
  reads : ∀ r ∈ t.reads, r.ticks = 2 * r.buff.start + r.offset

theorem TickInv.start : TickInv (Ticked.start : Ticked n α) where
  ring := Inv.start.ring
  ticks := rfl
  tick _ := rfl
  stores := nofun
  held := nofun
  time := nofun
  reads := nofun

variable {t t' : Ticked n α}

theorem TickInv.stays (inv : TickInv t) {s : State n α} (ring : Ring s)
    (same : s.buffs = t.state.buffs ∧ s.arrived = t.state.arrived)
    (callback : ∀ b, s.callback = .stores b → t.state.callback = .stores b)
    (held : s.holds = 1 → t.state.holds = 1 ∧ s.currentHandle = t.state.currentHandle ∧
      s.currentBuff = t.state.currentBuff)
    (time : ¬ s.place.Timed) : TickInv { t with state := s } := by
  obtain ⟨buffs, arrived⟩ := same
  constructor
  · exact ring
  · rw [arrived]
    exact inv.ticks
  · rw [buffs]
    exact inv.tick
  · exact fun b stores => inv.stores b (callback b stores)
  · intro one
    obtain ⟨one, handle, offset⟩ := held one
    rw [buffs, handle, offset]
    exact inv.held one
  · exact fun timed => absurd timed time
  · exact inv.reads

theorem TickInv.step {a : Act α} (inv : TickInv t) (calm : Calm t a) (step : TickStep t a t') :
    TickInv t' := by
  obtain ⟨step, same⟩ := step
  have ring := inv.ring.step calm step
  generalize t'.state = s at step same ring
  subst same
  cases step with
  | @arrive data idle joined =>
    have ticks : t.ticks + BYTES_PER_SAMPLE * data.length =
        2 * (t.state.arrived ++ data).length := by
      rw [List.length_append, Nat.mul_add, inv.ticks, BYTES_PER_SAMPLE]
    split
    · constructor
      · rename_i full
        rw [if_pos full] at ring
        exact ring
      · exact ticks
      · exact inv.tick
      · intro b stores
        cases idle.symm.trans stores
      · exact inv.held
      · exact inv.time
      · exact inv.reads
    · constructor
      · rename_i full
        rw [if_neg full] at ring
        exact ring
      · exact ticks
      · exact inv.tick
      · intro b stores
        cases stores
        exact inv.ticks
      · exact inv.held
      · exact inv.time
      · exact inv.reads
  | @store b stores =>
    have count := inv.stores b stores
    constructor
    · exact ring
    · exact inv.ticks
    · intro i
      by_cases here : i = t.state.buf_tail
      · simp [Ticked.count, here, count]
      · simp only [Ticked.count, Function.update_of_ne here, inv.tick i]
    · rintro _ ⟨⟩
    · intro one
      change t.state.holds = 1 at one
      have apart := inv.ring.apart one stores
      simp only [Ticked.count, Function.update_of_ne apart]
      exact inv.held one
    · exact inv.time
    · exact inv.reads
  | count counts => exact ⟨ring, inv.ticks, inv.tick, by rintro _ ⟨⟩, inv.held, inv.time, inv.reads⟩
  | activateStream at_p =>
    have none := calm rfl
    apply inv.stays ring ⟨rfl, rfl⟩ fun _ => id
    · intro one
      simp only [State.holds, at_p, if_true, Nat.zero_ne_one] at one
    · simp only [at_p]
      exact id
  | deactivateStream at_p idle =>
    exact inv.stays ring ⟨rfl, rfl⟩ (fun _ => id) (fun one => ⟨one, rfl, rfl⟩) (by rw [at_p]; exact id)
  | request_reset =>
    exact ⟨ring, inv.ticks, inv.tick, inv.stores, inv.held, inv.time, inv.reads⟩
  | readStream at_p =>
    apply inv.stays ring ⟨rfl, rfl⟩ (fun _ => id)
    · intro one
      simp only [State.holds] at one
      simp only [State.holds, at_p, one, and_self]
    · exact id
  | drop_remainder at_p reset some =>
    exact inv.stays ring ⟨rfl, rfl⟩ (fun _ => id) (by rintro ⟨⟩) id
  | @keep_remainder numElems at_p keep =>
    simp only [Ticked.count]
    by_cases none : t.state.bufferedElems = 0
    · rw [if_pos none, if_pos none]
      rw [if_pos none] at ring
      exact inv.stays ring ⟨rfl, rfl⟩ (fun _ => id) (by rintro ⟨⟩) id
    · rw [if_neg none, if_neg none]
      rw [if_neg none] at ring
      have one : t.state.holds = 1 := by simp only [State.holds, at_p, if_neg none]
      exact ⟨ring, inv.ticks, inv.tick, inv.stores, fun _ => inv.held one, fun _ => rfl, inv.reads⟩
  | drain at_p reset => exact inv.stays ring ⟨rfl, rfl⟩ (fun _ => id) (by rintro ⟨⟩) id
  | no_reset at_p reset => exact inv.stays ring ⟨rfl, rfl⟩ (fun _ => id) (by rintro ⟨⟩) id
  | unset_reset at_p => exact inv.stays ring ⟨rfl, rfl⟩ (fun _ => id) (by rintro ⟨⟩) id
  | unset_overflow at_p => exact inv.stays ring ⟨rfl, rfl⟩ (fun _ => id) (by rintro ⟨⟩) id
  | drain_overflow at_p overflow => exact inv.stays ring ⟨rfl, rfl⟩ (fun _ => id) (by rintro ⟨⟩) id
  | no_overflow at_p off => exact inv.stays ring ⟨rfl, rfl⟩ (fun _ => id) (by rintro ⟨⟩) id
  | return_overflow at_p =>
    have none : t.state.bufferedElems = 0 := inv.ring.empty (by rw [at_p]; trivial)
    apply inv.stays ring ⟨rfl, rfl⟩ (fun _ => id)
    · intro one
      simp only [State.holds, none, if_true, Nat.zero_ne_one] at one
    · exact id
  | timeout at_p _ =>
    have none : t.state.bufferedElems = 0 := inv.ring.empty (by rw [at_p]; trivial)
    apply inv.stays ring ⟨rfl, rfl⟩ (fun _ => id)
    · intro one
      simp only [State.holds, none, if_true, Nat.zero_ne_one] at one
    · exact id
  | acquire at_p some =>
    exact ⟨ring, inv.ticks, inv.tick, inv.stores, fun _ => inv.tick _, fun _ => rfl, inv.reads⟩
  | @copy numElems at_p =>
    have one : t.state.holds = 1 := by simp only [State.holds, at_p]
    have held := inv.held one
    have time := inv.time (by rw [at_p]; trivial)
    simp only [Ticked.count, at_p]
    constructor
    · exact ring
    · exact inv.ticks
    · exact inv.tick
    · exact inv.stores
    · intro _
      simp only [held, Nat.add_assoc]
    · intro timed
      split at timed <;> cases timed
    · intro r member
      rcases List.mem_append.mp member with old | new
      · exact inv.reads r old
      · cases List.mem_singleton.mp new
        exact time.trans held
  | release at_p =>
    have none : t.state.bufferedElems = 0 := inv.ring.empty (by rw [at_p]; trivial)
    apply inv.stays ring ⟨rfl, rfl⟩ (fun _ => id)
    · intro one
      simp only [State.holds, none, if_true, Nat.zero_ne_one] at one
    · exact id

theorem tail_ticked {t₀ : Ticked n α} {Allowed : Ticked n α → Act α → Prop} {a : Act α}
    {s : State n α} (run : Runs TickStep Allowed t₀ t) (step : Step t.state a s)
    (allowed : Allowed t a) : Runs TickStep Allowed t₀ { t.count a with state := s } :=
  run.tail ⟨step, rfl⟩ allowed

theorem TickInv.of_run (run : Runs TickStep Calm Ticked.start t) : TickInv t :=
  run.keeps (fun _ _ _ inv calm step => inv.step calm step) TickInv.start

/-- Times are right only while no buffer before had any samples: a count of bytes is the count of
    samples at the start only. -/
theorem ticks_right_iff (run : Runs TickStep Calm Ticked.start t) :
    (∀ r ∈ t.reads, r.Right) ↔ ∀ r ∈ t.reads, r.block.data ≠ [] → r.buff.start = 0 := by
  have inv := TickInv.of_run run
  apply forall₂_congr
  intro r member
  have ticks := inv.reads r member
  have start : r.block.start = r.buff.start + r.offset := rfl
  constructor
  · intro right some
    have right := right some
    omega
  · intro first some
    have first := first some
    omega

theorem second_buffer_early : ∃ t : Ticked 2 Nat, Runs TickStep Calm Ticked.start t ∧
    t.reads = [⟨⟨0, [10, 11]⟩, 0, 1, 0⟩, ⟨⟨0, [10, 11]⟩, 1, 1, 1⟩, ⟨⟨2, [12, 13]⟩, 0, 2, 4⟩] := by
  have start : Runs TickStep Calm (Ticked.start : Ticked 2 Nat) Ticked.start := .refl
  have activated := tail_ticked start (.activateStream rfl) fun _ => rfl
  have called := tail_ticked activated (a := .readStream 1) (.readStream rfl) nofun
  have asked := tail_ticked called (.keep_remainder rfl (.inr rfl)) nofun
  have drained := tail_ticked asked (.drain rfl rfl) nofun
  have unset := tail_ticked drained (.unset_reset rfl) nofun
  have checks := tail_ticked unset (.unset_overflow rfl) nofun
  have waits := tail_ticked checks (.no_overflow rfl rfl) nofun
  have arrived := tail_ticked waits (a := .arrive [10, 11]) (.arrive rfl rfl) nofun
  have stored := tail_ticked arrived (.store rfl) nofun
  have counted := tail_ticked stored (.count rfl) nofun
  have acquired := tail_ticked counted (.acquire rfl nofun) nofun
  have copied := tail_ticked acquired (.copy rfl) nofun
  have called := tail_ticked copied (a := .readStream 2) (.readStream rfl) nofun
  have kept := tail_ticked called (.keep_remainder rfl (.inl rfl)) nofun
  have copied := tail_ticked kept (.copy rfl) nofun
  have released := tail_ticked copied (.release rfl) nofun
  have arrived := tail_ticked released (a := .arrive [12, 13]) (.arrive rfl rfl) nofun
  have stored := tail_ticked arrived (.store rfl) nofun
  have counted := tail_ticked stored (.count rfl) nofun
  have called := tail_ticked counted (a := .readStream 2) (.readStream rfl) nofun
  have asked := tail_ticked called (.keep_remainder rfl (.inr rfl)) nofun
  have checks := tail_ticked asked (.no_reset rfl rfl) nofun
  have waits := tail_ticked checks (.no_overflow rfl rfl) nofun
  have acquired := tail_ticked waits (.acquire rfl nofun) nofun
  have copied := tail_ticked acquired (.copy rfl) nofun
  exact ⟨_, copied, rfl⟩

theorem ticks_right_two : ∃ t : Ticked 2 Nat, Runs TickStep Calm Ticked.start t ∧
    ((∀ r ∈ t.reads, r.Right) ↔ ∀ r ∈ t.reads, r.block.data ≠ [] → r.buff.start = 0) := by
  obtain ⟨t, run, _⟩ := second_buffer_early
  exact ⟨t, run, ticks_right_iff run⟩

/-- Two samples came before the third read, and it counts four. -/
theorem ticks_wrong : ∃ t : Ticked 2 Nat, Runs TickStep Calm Ticked.start t ∧
    ¬ ∀ r ∈ t.reads, r.Right := by
  obtain ⟨t, run, reads⟩ := second_buffer_early
  refine ⟨t, run, fun right => ?_⟩
  have last : Read.Right (⟨⟨2, [12, 13]⟩, 0, 2, 4⟩ : Read Nat) := right _ (by simp [reads])
  exact absurd (last nofun) (by decide)

end Soapy.Receive.RTLSDR
