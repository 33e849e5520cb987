import Soapy.Lime.Streamer

/-! # Runs of a streamer

After each call a thread runs exactly when a used channel of its direction is active,
unless the setup of a stream has stopped the threads.
-/

namespace Soapy.Lime

open Lib StreamDataFormat

inductive StreamCall where
  | setup (config : StreamConfig)
  | start (isTx : Bool) (ch : Fin 2)
  | stop (isTx : Bool) (ch : Fin 2)
  | close (isTx : Bool) (ch : Fin 2)

namespace Streamer

def perform (s : Streamer) : StreamCall → Option Streamer
  | .setup config => some (s.setupStream config).2
  | .start isTx ch => s.start isTx ch
  | .stop isTx ch => some (s.stop isTx ch)
  | .close isTx ch => some (s.close isTx ch)

/-- A setup interrupts the stream by stopping its threads. The next call that comes to
    `UpdateThreads` ends the interruption. -/
def interruption (s : Streamer) (interrupted : Bool) : StreamCall → Bool
  | .setup config => interrupted || s.interrupts config
  | .start _ _ | .stop _ _ => false
  | .close isTx ch => interrupted && !(s.mStreams isTx ch).mActive

end Streamer

structure StreamerSession where
  streamer : Streamer
  interrupted : Bool

def StreamerSession.Step (s : StreamerSession) (call : StreamCall) (s' : StreamerSession) : Prop :=
  s.streamer.perform call = some s'.streamer ∧
    s'.interrupted = s.streamer.interruption s.interrupted call

namespace Streamer

variable {s : Streamer} {isTx : Bool} {ch : Fin 2} {c : StreamChannel}

@[simp] theorem setStream_self (s : Streamer) (isTx : Bool) (ch : Fin 2) (c : StreamChannel) :
    (s.setStream isTx ch c).mStreams isTx ch = c := by
  simp [setStream]

theorem setStream_other {isTx' : Bool} {ch' : Fin 2} (other : ¬ (isTx' = isTx ∧ ch' = ch)) :
    (s.setStream isTx ch c).mStreams isTx' ch' = s.mStreams isTx' ch' := by
  by_cases same : isTx' = isTx
  · subst same
    have apart : ch' ≠ ch := fun here => other ⟨rfl, here⟩
    simp [setStream, apart]
  · simp [setStream, same]

/-- What a channel is for the threads stays as it was. -/
structure Alike (c c' : StreamChannel) : Prop where
  used : c'.used = c.used
  mActive : c'.mActive = c.mActive
  linkFormat : c'.linkFormat = c.linkFormat
  fifo : c'.fifo.isSome = c.fifo.isSome

theorem Alike.refl (c : StreamChannel) : Alike c c := ⟨rfl, rfl, rfl, rfl⟩

theorem resize_alike (s : Streamer) (isTx : Bool) (ch : Fin 2) :
    Alike (s.mStreams isTx ch) (s.resizeChannelBuffers.mStreams isTx ch) := by
  simp only [resizeChannelBuffers]
  split
  · exact ⟨rfl, rfl, rfl, Option.isSome_map⟩
  · exact .refl _

theorem updateThreads_alike (s : Streamer) (stopAll isTx : Bool) (ch : Fin 2) :
    Alike (s.mStreams isTx ch) ((s.updateThreads stopAll).mStreams isTx ch) := by
  simp only [updateThreads, startThreads]
  split
  · exact resize_alike (s.stopThreads _) isTx ch
  · exact .refl _

variable {s' : Streamer}

theorem need_congr {s : Streamer} (same : ∀ ch, (s'.mStreams isTx ch).live = (s.mStreams isTx ch).live) :
    s'.need isTx = s.need isTx := by
  rw [need, need, same, same]

theorem Alike.live {c c' : StreamChannel} (alike : Alike c c') : c'.live = c.live := by
  rw [StreamChannel.live, StreamChannel.live, alike.used, alike.mActive]

theorem updateThreads_need (s : Streamer) (stopAll isTx : Bool) :
    (s.updateThreads stopAll).need isTx = s.need isTx :=
  need_congr fun ch => (s.updateThreads_alike stopAll isTx ch).live

theorem setStream_need (live : c.live = (s.mStreams isTx ch).live) (isTx' : Bool) :
    (s.setStream isTx ch c).need isTx' = s.need isTx' := by
  apply need_congr
  intro ch'
  by_cases here : isTx' = isTx ∧ ch' = ch
  · obtain ⟨rfl, rfl⟩ := here
    rw [setStream_self, live]
  · rw [setStream_other here]

theorem updateThreads_thread (s : Streamer) (stopAll isTx : Bool) :
    ((s.updateThreads stopAll).thread isTx).isSome = (!stopAll && s.need isTx) := by
  simp only [updateThreads, startThreads]
  by_cases needed : (!stopAll && s.need isTx) = true
  · simp [needed]
  · have stopped : ((s.stopThreads fun isTx => !stopAll && s.need isTx).thread isTx) = none := by
      simp only [stopThreads, if_neg needed]
    rw [Bool.not_eq_true] at needed
    simp only [needed, Bool.false_eq_true, if_false]
    split
    · exact congrArg Option.isSome stopped
    · exact congrArg Option.isSome stopped

structure Sound (c : StreamChannel) : Prop where
  idle : c.used = false → c.mActive = false
  held : c.fifo.isSome = c.used

theorem Alike.sound {c c' : StreamChannel} (alike : Alike c c') (sound : Sound c) : Sound c' where
  idle unused := alike.mActive.trans (sound.idle (alike.used.symm.trans unused))
  held := alike.fifo.trans (sound.held.trans alike.used.symm)

def AllSound (s : Streamer) : Prop := ∀ isTx ch, Sound (s.mStreams isTx ch)

theorem AllSound.update (all : s.AllSound) (stopAll : Bool) : (s.updateThreads stopAll).AllSound :=
  fun isTx ch => (s.updateThreads_alike stopAll isTx ch).sound (all isTx ch)

theorem AllSound.set (all : s.AllSound) (sound : Sound c) : (s.setStream isTx ch c).AllSound := by
  intro isTx' ch'
  by_cases here : isTx' = isTx ∧ ch' = ch
  · obtain ⟨rfl, rfl⟩ := here
    rw [setStream_self]
    exact sound
  · rw [setStream_other here]
    exact all isTx' ch'

/-- The threads that run are those of the active channels, or none after an interruption. -/
def Synced (s : Streamer) (interrupted : Bool) : Prop :=
  ∀ isTx, (s.thread isTx).isSome = (!interrupted && s.need isTx)

theorem synced_update (s : Streamer) (stopAll : Bool) : (s.updateThreads stopAll).Synced stopAll := by
  intro isTx
  rw [updateThreads_thread, updateThreads_need]

variable {interrupted : Bool}

theorem Synced.set (synced : s.Synced interrupted)
    (live : c.live = (s.mStreams isTx ch).live) : (s.setStream isTx ch c).Synced interrupted := by
  intro isTx'
  rw [setStream_need live]
  exact synced isTx'

theorem usedAt_of_used (used : (s.mStreams isTx ch).used = true) : s.usedAt ch = true := by
  cases isTx with
  | false => simp [usedAt, mRxStreams, used]
  | true => simp [usedAt, mTxStreams, used]

theorem setupStream_cases (s : Streamer) (config : StreamConfig) :
    (s.setupStream config).2 = s.makeWay config ∨
      ((s.mStreams config.isTx (index config)).used = false ∧
        (s.running → config.linkFormat = (s.makeWay config).dataLinkFormat) ∧
        (s.setupStream config).2 = (s.makeWay config).enroll config) := by
  unfold setupStream
  by_cases used : (s.mStreams config.isTx (index config)).used = true
  · have stays : s.makeWay config = s := by
      rw [makeWay, interrupts, usedAt_of_used used, Bool.not_true, Bool.and_false]
      rfl
    rw [if_pos used, stays]
    exact .inl rfl
  · rw [if_neg used]
    by_cases refused : (s.running && config.linkFormat ≠ (s.makeWay config).dataLinkFormat) = true
    · rw [if_pos refused]
      exact .inl rfl
    · rw [if_neg refused]
      refine .inr ⟨Bool.not_eq_true _ ▸ used, ?_, rfl⟩
      intro running
      by_contra other
      exact refused (by simp [running, other])

theorem makeWay_alike (s : Streamer) (config : StreamConfig) (isTx : Bool) (ch : Fin 2) :
    Alike (s.mStreams isTx ch) ((s.makeWay config).mStreams isTx ch) := by
  unfold makeWay
  split
  · exact s.updateThreads_alike true isTx ch
  · exact .refl _

theorem AllSound.makeWay (all : s.AllSound) (config : StreamConfig) : (s.makeWay config).AllSound :=
  fun isTx ch => (s.makeWay_alike config isTx ch).sound (all isTx ch)

theorem Synced.makeWay (synced : s.Synced interrupted) (config : StreamConfig) :
    (s.makeWay config).Synced (interrupted || s.interrupts config) := by
  unfold Streamer.makeWay
  cases s.interrupts config with
  | false =>
    rw [Bool.or_false]
    exact synced
  | true =>
    rw [Bool.or_true]
    exact synced_update s true

theorem setup_sound (sound : Sound c) (unused : c.used = false) (config : StreamConfig) :
    Sound (c.setup config) ∧ (c.setup config).live = c.live := by
  have inactive := sound.idle unused
  constructor
  · exact ⟨fun used => Bool.noConfusion used, rfl⟩
  · simp [StreamChannel.live, StreamChannel.setup, inactive]

theorem setupStream_threads (all : s.AllSound) (synced : s.Synced interrupted)
    (config : StreamConfig) :
    (s.setupStream config).2.AllSound ∧
      (s.setupStream config).2.Synced (interrupted || s.interrupts config) := by
  have sound := all.makeWay config
  have way := synced.makeWay config
  cases s.setupStream_cases config with
  | inl refused =>
    rw [refused]
    exact ⟨sound, way⟩
  | inr enrolled =>
    obtain ⟨unused, _, result⟩ := enrolled
    have free := (s.makeWay_alike config config.isTx (index config)).used.trans unused
    obtain ⟨channel, live⟩ := setup_sound (sound config.isTx (index config)) free config
    rw [result]
    exact ⟨sound.set channel, way.set live⟩

theorem start_eq (started : s.start isTx ch = some s') :
    (s.mStreams isTx ch).fifo.isSome ∧
      s' = (s.setStream isTx ch { s.mStreams isTx ch with mActive := true }).updateThreads false := by
  obtain ⟨f, held, result⟩ := Option.map_eq_some_iff.mp started
  exact ⟨by rw [held]; rfl, result.symm⟩

theorem activate_sound (sound : Sound c) (held : c.fifo.isSome) :
    Sound { c with mActive := true } where
  idle unused := by
    have used : c.used = true := sound.held.symm.trans held
    exact absurd (used.symm.trans unused) (by decide)
  held := sound.held

theorem deactivate_sound (sound : Sound c) : Sound { c with mActive := false } :=
  ⟨fun _ => rfl, sound.held⟩

theorem stop_threads (all : s.AllSound) (isTx : Bool) (ch : Fin 2) :
    (s.stop isTx ch).AllSound ∧ (s.stop isTx ch).Synced false :=
  ⟨(all.set (deactivate_sound (all isTx ch))).update false, synced_update _ false⟩

theorem stop_inactive (s : Streamer) (isTx : Bool) (ch : Fin 2) :
    ((s.stop isTx ch).mStreams isTx ch).mActive = false := by
  have same := ((s.setStream isTx ch { s.mStreams isTx ch with mActive := false }).updateThreads_alike
    false isTx ch).mActive
  rw [setStream_self] at same
  exact same

theorem release_threads (all : s.AllSound) (synced : s.Synced interrupted)
    (inactive : (s.mStreams isTx ch).mActive = false) :
    (s.release isTx ch).AllSound ∧ (s.release isTx ch).Synced interrupted := by
  constructor
  · exact all.set ⟨fun _ => inactive, rfl⟩
  · apply synced.set
    simp [StreamChannel.live, inactive]

theorem perform_threads {call : StreamCall}
    (all : s.AllSound) (synced : s.Synced interrupted) (performed : s.perform call = some s') :
    s'.AllSound ∧ s'.Synced (s.interruption interrupted call) := by
  cases call with
  | setup config =>
    cases performed
    exact setupStream_threads all synced config
  | start isTx ch =>
    obtain ⟨held, rfl⟩ := start_eq performed
    exact ⟨(all.set (activate_sound (all isTx ch) held)).update false, synced_update _ false⟩
  | stop isTx ch =>
    cases performed
    exact stop_threads all isTx ch
  | close isTx ch =>
    cases performed
    unfold close
    by_cases active : (s.mStreams isTx ch).mActive = true
    · simp only [interruption, active, if_true, Bool.not_true, Bool.and_false]
      obtain ⟨sound, threads⟩ := stop_threads all isTx ch
      exact release_threads sound threads (s.stop_inactive isTx ch)
    · rw [Bool.not_eq_true] at active
      simp only [interruption, active, Bool.false_eq_true, if_false, Bool.not_false, Bool.and_true]
      exact release_threads all synced active

end Streamer

end Soapy.Lime
