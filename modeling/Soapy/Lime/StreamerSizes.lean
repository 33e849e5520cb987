import Soapy.Lime.StreamerRuns

/-! # Sizes and formats of a running streamer

While a thread runs, the sizes and the link format of the streamer are those of its
channels and of the FPGA. This needs that they were when the first thread was started,
and that no channel joins while two are enabled.
-/

namespace Soapy.Lime

open Lib StreamDataFormat

namespace Streamer

def enabled (register7 : UInt16) (ch : Fin 2) : Bool :=
  register7 &&& (if ch = 0 then 1 else 2) ≠ 0

/-- The number of channels that the value enables. -/
def enabledCount (register7 : UInt16) : Nat :=
  (enabled register7 0).toNat + (enabled register7 1).toNat

def usedCount (s : Streamer) : Nat := (s.usedAt 0).toNat + (s.usedAt 1).toNat

structure Matched (s : Streamer) : Prop where
  format : ∀ isTx ch, (s.mStreams isTx ch).used → (s.mStreams isTx ch).linkFormat = s.dataLinkFormat
  size : s.streamSize = enabledCount s.register7
  fifo : ∀ isTx ch, (s.mStreams isTx ch).used →
    ∃ f, (s.mStreams isTx ch).fifo = some f ∧ f.mPktSize = s.samplesInPacket
  loops : ∀ isTx n, s.thread isTx = some n → n = s.samplesInPacket

structure Settled (s : Streamer) : Prop where
  size : s.streamSize = s.usedCount
  format : ∃ format, format ≠ FMT_FLOAT32 ∧
    ∀ isTx ch, (s.mStreams isTx ch).used → (s.mStreams isTx ch).linkFormat = format

/-- The flags as the call leaves them for `UpdateThreads`, where it calls it. -/
def marked (s : Streamer) : StreamCall → Option Streamer
  | .setup _ => none
  | .start isTx ch => some (s.setStream isTx ch { s.mStreams isTx ch with mActive := true })
  | .stop isTx ch => some (s.setStream isTx ch { s.mStreams isTx ch with mActive := false })
  | .close isTx ch =>
    if (s.mStreams isTx ch).mActive then
      some (s.setStream isTx ch { s.mStreams isTx ch with mActive := false })
    else none

/-- The first thread is started in a settled state, and a channel that joins a running stream
    finds one channel enabled. -/
def Clean (s : Streamer) : StreamCall → Prop
  | .setup config =>
    s.running → s.usedAt (index config) → (s.mStreams config.isTx (index config)).used = false →
      config.linkFormat = s.dataLinkFormat → s.streamSize = 1
  | call => ∀ m, s.marked call = some m → s.running = false → m.need true ∨ m.need false → s.Settled

variable {s : Streamer} {isTx : Bool} {ch : Fin 2} {c : StreamChannel}

structure Linked (s : Streamer) : Prop extends Matched s where
  cover : ∀ ch, s.usedAt ch → enabled s.register7 ch

/-- The channels of the second streamer that are used are set up as they were in the first. -/
def Within (s s' : Streamer) : Prop :=
  ∀ isTx ch, (s'.mStreams isTx ch).used = true → (s.mStreams isTx ch).used = true ∧
    (s'.mStreams isTx ch).linkFormat = (s.mStreams isTx ch).linkFormat ∧
    (s'.mStreams isTx ch).fifo = (s.mStreams isTx ch).fifo

theorem usedAt_iff : s.usedAt ch = true ↔ ∃ isTx, (s.mStreams isTx ch).used = true := by
  simp [usedAt, mTxStreams, mRxStreams, or_comm]

variable {s' : Streamer}

theorem Within.usedAt (within : Within s s') (used : s'.usedAt ch = true) :
    s.usedAt ch = true := by
  obtain ⟨isTx, here⟩ := usedAt_iff.mp used
  exact usedAt_iff.mpr ⟨isTx, (within isTx ch here).1⟩

theorem Linked.within {s' : Streamer} (linked : s.Linked) (within : Within s s')
    (size : s'.streamSize = s.streamSize) (format : s'.dataLinkFormat = s.dataLinkFormat)
    (register : s'.register7 = s.register7)
    (loops : ∀ isTx n, s'.thread isTx = some n → n = s.samplesInPacket) : s'.Linked := by
  have samples : s'.samplesInPacket = s.samplesInPacket := by
    rw [samplesInPacket, samplesInPacket, size, format]
  refine ⟨⟨?_, ?_, ?_, ?_⟩, ?_⟩
  · intro isTx ch used
    obtain ⟨before, same, _⟩ := within isTx ch used
    rw [same, format]
    exact linked.format isTx ch before
  · rw [size, register]
    exact linked.size
  · intro isTx ch used
    obtain ⟨before, _, same⟩ := within isTx ch used
    rw [same, samples]
    exact linked.fifo isTx ch before
  · rw [samples]
    exact loops
  · intro ch used
    rw [register]
    exact linked.cover ch (within.usedAt used)

theorem Within.refl (s : Streamer) : Within s s := fun _ _ used => ⟨used, rfl, rfl⟩

theorem Linked.stopThreads (linked : s.Linked) (need : Bool → Bool) : (s.stopThreads need).Linked := by
  have loops : ∀ isTx n, (s.stopThreads need).thread isTx = some n → n = s.samplesInPacket := by
    intro isTx n running
    simp only [Streamer.stopThreads] at running
    split at running
    · exact linked.loops isTx n running
    · cases running
  exact linked.within (Within.refl s) rfl rfl rfl loops

theorem Linked.startThreads (linked : s.Linked) (need : Bool → Bool) :
    (s.startThreads need).Linked := by
  have loops : ∀ isTx n, (s.startThreads need).thread isTx = some n → n = s.samplesInPacket := by
    intro isTx n running
    simp only [Streamer.startThreads] at running
    split at running
    · rw [← Option.some.inj running]
      cases thread : s.thread isTx with
      | none => rfl
      | some n => exact linked.loops isTx n thread
    · exact linked.loops isTx n running
  exact linked.within (Within.refl s) rfl rfl rfl loops

theorem within_active (s : Streamer) (isTx : Bool) (ch : Fin 2) (active : Bool) :
    Within s (s.setStream isTx ch { s.mStreams isTx ch with mActive := active }) := by
  intro isTx' ch' used
  by_cases here : isTx' = isTx ∧ ch' = ch
  · obtain ⟨rfl, rfl⟩ := here
    rw [setStream_self] at used ⊢
    exact ⟨used, rfl, rfl⟩
  · rw [setStream_other here] at used ⊢
    exact ⟨used, rfl, rfl⟩

theorem within_release (s : Streamer) (isTx : Bool) (ch : Fin 2) : Within s (s.release isTx ch) := by
  intro isTx' ch' used
  by_cases here : isTx' = isTx ∧ ch' = ch
  · obtain ⟨rfl, rfl⟩ := here
    rw [release, setStream_self] at used
    exact absurd used Bool.false_ne_true
  · rw [release, setStream_other here] at used ⊢
    exact ⟨used, rfl, rfl⟩

theorem Linked.active (linked : s.Linked) (isTx : Bool) (ch : Fin 2) (active : Bool) :
    (s.setStream isTx ch { s.mStreams isTx ch with mActive := active }).Linked :=
  linked.within (within_active s isTx ch active) rfl rfl rfl linked.loops

theorem Linked.release (linked : s.Linked) (isTx : Bool) (ch : Fin 2) : (s.release isTx ch).Linked :=
  linked.within (within_release s isTx ch) rfl rfl rfl linked.loops

theorem active_used (s : Streamer) (isTx isTx' : Bool) (ch ch' : Fin 2) (active : Bool) :
    ((s.setStream isTx ch { s.mStreams isTx ch with mActive := active }).mStreams isTx' ch').used =
      (s.mStreams isTx' ch').used := by
  by_cases here : isTx' = isTx ∧ ch' = ch
  · obtain ⟨rfl, rfl⟩ := here
    rw [setStream_self]
  · rw [setStream_other here]

theorem Settled.active (settled : s.Settled) (isTx : Bool) (ch : Fin 2) (active : Bool) :
    (s.setStream isTx ch { s.mStreams isTx ch with mActive := active }).Settled := by
  obtain ⟨size, format, link, alike⟩ := settled
  refine ⟨?_, format, link, ?_⟩
  · simp only [usedCount, usedAt, mTxStreams, mRxStreams, active_used]
    exact size
  · intro isTx' ch' used
    obtain ⟨before, same, _⟩ := within_active s isTx ch active isTx' ch' used
    rw [same]
    exact alike isTx' ch' before

theorem enabled_channelEnables (s : Streamer) (ch : Fin 2) :
    enabled s.channelEnables ch = s.usedAt ch := by
  have bits : ∀ u v : Bool,
      enabled ((if u then 1 else 0) + 2 * if v then 1 else 0) 0 = u ∧
        enabled ((if u then 1 else 0) + 2 * if v then 1 else 0) 1 = v := by decide
  obtain ⟨first, second⟩ := bits (s.usedAt 0) (s.usedAt 1)
  fin_cases ch
  · exact first
  · exact second

theorem wide_iff : s.wide = true ↔ ∃ isTx ch, (s.mStreams isTx ch).wide = true := by
  simp [wide, mRxStreams, mTxStreams, Fin.exists_fin_two, or_assoc]

theorem channel_wide_iff : c.wide = true ↔ c.used = true ∧ c.linkFormat ≠ FMT_INT12 := by
  simp [StreamChannel.wide]

theorem Settled.linkFormat (settled : s.Settled) (used : (s.mStreams isTx ch).used = true) :
    (s.mStreams isTx ch).linkFormat = if s.wide then FMT_INT16 else FMT_INT12 := by
  obtain ⟨format, link, alike⟩ := settled.format
  by_cases wide : s.wide = true
  · obtain ⟨isTx', ch', there⟩ := wide_iff.mp wide
    obtain ⟨used', other⟩ := channel_wide_iff.mp there
    rw [if_pos wide, alike isTx ch used]
    rw [alike isTx' ch' used'] at other
    cases format with
    | FMT_INT16 => rfl
    | FMT_INT12 => exact absurd rfl other
    | FMT_FLOAT32 => exact absurd rfl link
  · rw [if_neg wide]
    by_contra other
    exact wide (wide_iff.mpr ⟨isTx, ch, channel_wide_iff.mpr ⟨used, other⟩⟩)

theorem Alike.wide {c c' : StreamChannel} (alike : Alike c c') : c'.wide = c.wide := by
  rw [StreamChannel.wide, StreamChannel.wide, alike.used, alike.linkFormat]

theorem resize_wide (s : Streamer) : s.resizeChannelBuffers.wide = s.wide := by
  simp only [wide, mRxStreams, mTxStreams, (s.resize_alike _ _).wide]

theorem resize_usedAt (s : Streamer) (ch : Fin 2) :
    s.resizeChannelBuffers.usedAt ch = s.usedAt ch := by
  simp only [usedAt, mRxStreams, mTxStreams, (s.resize_alike _ _).used]

theorem Settled.configure (settled : s.Settled) (all : s.AllSound)
    (stands : ∀ isTx, s.thread isTx = none) : s.configure.Linked := by
  have format : s.configure.dataLinkFormat = if s.wide then FMT_INT16 else FMT_INT12 := by
    simp only [Streamer.configure, resize_wide]
  have samples : s.configure.samplesInPacket =
      (if s.wide then samples16InPkt else samples12InPkt) / s.streamSize := by
    rw [samplesInPacket, format]
    cases s.wide <;> rfl
  have bits : ∀ ch, enabled s.configure.register7 ch = s.usedAt ch := by
    intro ch
    exact (enabled_channelEnables s.resizeChannelBuffers ch).trans (s.resize_usedAt ch)
  refine ⟨⟨?_, ?_, ?_, ?_⟩, ?_⟩
  · intro isTx ch used
    have alike := s.resize_alike isTx ch
    rw [format]
    exact alike.linkFormat.trans (settled.linkFormat (alike.used.symm.trans used))
  · rw [enabledCount, bits, bits]
    exact settled.size
  · intro isTx ch used
    have before : (s.mStreams isTx ch).used = true := (s.resize_alike isTx ch).used.symm.trans used
    obtain ⟨f, held⟩ := Option.isSome_iff_exists.mp ((all isTx ch).held.trans before)
    refine ⟨f.resize ((if s.wide then samples16InPkt else samples12InPkt) / s.streamSize), ?_, ?_⟩
    · simp [Streamer.configure, resizeChannelBuffers, if_pos before, held]
    · rw [samples]
      rfl
  · intro isTx n running
    exact absurd ((stands isTx).symm.trans running) (by simp)
  · intro ch used
    rw [bits, ← resize_usedAt]
    exact used

theorem running_iff : s.running = true ↔ ∃ isTx, (s.thread isTx).isSome = true := by
  simp [running, rxThread, txThread, or_comm]

theorem not_running_iff : s.running = false ↔ ∀ isTx, s.thread isTx = none := by
  simp [running, rxThread, txThread, and_comm]

theorem stopThreads_running (needed : s.need isTx = true) (thread : (s.thread isTx).isSome = true) :
    (s.stopThreads s.need).running = true := by
  apply running_iff.mpr
  refine ⟨isTx, ?_⟩
  simp only [stopThreads, if_pos needed]
  exact thread

theorem running_of_stopThreads {need : Bool → Bool} (runs : (s.stopThreads need).running = true) :
    s.running = true := by
  obtain ⟨isTx, thread⟩ := running_iff.mp runs
  simp only [stopThreads] at thread
  split at thread
  · exact running_iff.mpr ⟨isTx, thread⟩
  · cases thread

theorem updateThreads_linked (all : s.AllSound) (linked : s.running = true → s.Linked)
    (kept : s.running = true → ∀ isTx, s.need isTx = true →
      ∃ isTx, s.need isTx = true ∧ (s.thread isTx).isSome = true)
    (settled : s.running = false → s.need true = true ∨ s.need false = true → s.Settled)
    (runs : (s.updateThreads false).running = true) : (s.updateThreads false).Linked := by
  obtain ⟨isTx, needed⟩ := running_iff.mp runs
  rw [updateThreads_thread, Bool.not_false, Bool.true_and] at needed
  have either : s.need true = true ∨ s.need false = true := by
    cases isTx with
    | false => exact .inr needed
    | true => exact .inl needed
  simp only [updateThreads, Bool.not_false, Bool.true_and]
  by_cases keeps : (s.stopThreads s.need).running = true
  · have before := linked (running_of_stopThreads keeps)
    rw [if_neg (by simp [keeps])]
    exact (before.stopThreads s.need).startThreads s.need
  · have stood : s.running = false := by
      by_contra ran
      rw [Bool.not_eq_false] at ran
      obtain ⟨isTx', needed', thread⟩ := kept ran isTx needed
      exact keeps (stopThreads_running needed' thread)
    rw [Bool.not_eq_true] at keeps
    have ready : (s.stopThreads s.need).Settled :=
      ⟨(settled stood either).size, (settled stood either).format⟩
    have configured := ready.configure all (not_running_iff.mp keeps)
    rw [if_pos (by rw [keeps]; rcases either with h | h <;> simp [h])]
    exact configured.startThreads s.need

theorem need_activate {isTx' : Bool} (used : (s.mStreams isTx ch).used = true)
    (needed : s.need isTx' = true) :
    (s.setStream isTx ch { s.mStreams isTx ch with mActive := true }).need isTx' = true := by
  have live : ∀ ch', (s.mStreams isTx' ch').live = true →
      ((s.setStream isTx ch { s.mStreams isTx ch with mActive := true }).mStreams isTx' ch').live =
        true := by
    intro ch' alive
    by_cases here : isTx' = isTx ∧ ch' = ch
    · obtain ⟨rfl, rfl⟩ := here
      rw [setStream_self, StreamChannel.live, used]
      rfl
    · rw [setStream_other here]
      exact alive
  rw [need, Bool.or_eq_true] at needed ⊢
  exact needed.imp (live 0) (live 1)

theorem need_deactivate {isTx' : Bool}
    (needed : (s.setStream isTx ch { s.mStreams isTx ch with mActive := false }).need isTx' = true) :
    s.need isTx' = true := by
  have live : ∀ ch',
      ((s.setStream isTx ch { s.mStreams isTx ch with mActive := false }).mStreams isTx' ch').live =
        true → (s.mStreams isTx' ch').live = true := by
    intro ch' alive
    by_cases here : isTx' = isTx ∧ ch' = ch
    · obtain ⟨rfl, rfl⟩ := here
      rw [setStream_self, StreamChannel.live, Bool.and_false] at alive
      cases alive
    · rw [setStream_other here] at alive
      exact alive
  rw [need, Bool.or_eq_true] at needed ⊢
  exact needed.imp (live 0) (live 1)

theorem Synced.need {interrupted : Bool} (synced : s.Synced interrupted)
    (thread : (s.thread isTx).isSome = true) : interrupted = false ∧ s.need isTx = true := by
  rw [synced isTx, Bool.and_eq_true, Bool.not_eq_true'] at thread
  exact thread

theorem Synced.thread {interrupted : Bool} (synced : s.Synced interrupted) (runs : s.running = true)
    (needed : s.need isTx = true) : (s.thread isTx).isSome = true := by
  obtain ⟨isTx', thread⟩ := running_iff.mp runs
  rw [synced isTx, (synced.need thread).1, needed]
  rfl

variable {interrupted : Bool}

/-- The state between two calls. -/
structure Kept (s : Streamer) (interrupted : Bool) : Prop where
  all : s.AllSound
  synced : s.Synced interrupted
  linked : s.running = true → s.Linked

theorem Kept.start_linked (kept : s.Kept interrupted)
    (clean : s.Clean (.start isTx ch)) (started : s.start isTx ch = some s')
    (runs : s'.running = true) : s'.Linked := by
  obtain ⟨held, rfl⟩ := start_eq started
  have used : (s.mStreams isTx ch).used = true := (kept.all isTx ch).held.symm.trans held
  apply updateThreads_linked
  · exact kept.all.set (activate_sound (kept.all isTx ch) held)
  · exact fun ran => (kept.linked ran).active isTx ch true
  · intro ran _ _
    obtain ⟨isTx', thread⟩ := running_iff.mp ran
    exact ⟨isTx', need_activate used (kept.synced.need thread).2, thread⟩
  · intro stood needed
    exact (clean _ rfl stood needed).active isTx ch true
  · exact runs

theorem Kept.stop_linked (kept : s.Kept interrupted) (settled : s.running = false →
      (s.setStream isTx ch { s.mStreams isTx ch with mActive := false }).need true = true ∨
        (s.setStream isTx ch { s.mStreams isTx ch with mActive := false }).need false = true →
      s.Settled)
    (runs : (s.stop isTx ch).running = true) : (s.stop isTx ch).Linked := by
  apply updateThreads_linked
  · exact kept.all.set (deactivate_sound (kept.all isTx ch))
  · exact fun ran => (kept.linked ran).active isTx ch false
  · intro ran isTx' needed
    exact ⟨isTx', needed, kept.synced.thread ran (need_deactivate needed)⟩
  · exact fun stood needed => (settled stood needed).active isTx ch false
  · exact runs

theorem Kept.close_linked (kept : s.Kept interrupted) (clean : s.Clean (.close isTx ch))
    (runs : (s.close isTx ch).running = true) : (s.close isTx ch).Linked := by
  unfold close at runs ⊢
  by_cases active : (s.mStreams isTx ch).mActive = true
  · rw [if_pos active] at runs ⊢
    have marked : s.marked (.close isTx ch) =
        some (s.setStream isTx ch { s.mStreams isTx ch with mActive := false }) := if_pos active
    exact (kept.stop_linked (clean _ marked) runs).release isTx ch
  · rw [if_neg active] at runs ⊢
    exact (kept.linked runs).release isTx ch

variable {config : StreamConfig}

theorem makeWay_running (runs : (s.makeWay config).running = true) :
    s.makeWay config = s ∧ s.usedAt (index config) = true := by
  unfold makeWay at runs ⊢
  cases stops : s.interrupts config with
  | true =>
    rw [stops, if_pos rfl] at runs
    obtain ⟨isTx, thread⟩ := running_iff.mp runs
    rw [updateThreads_thread] at thread
    cases thread
  | false =>
    rw [stops] at runs
    refine ⟨rfl, ?_⟩
    rw [interrupts, Bool.and_eq_false_imp] at stops
    simpa using stops runs

theorem enroll_usedAt (used : s.usedAt (index config) = true)
    (ch : Fin 2) : (s.enroll config).usedAt ch = s.usedAt ch := by
  by_cases there : ch = index config
  · subst there
    rw [used]
    apply @usedAt_of_used _ config.isTx
    simp only [enroll, setStream_self]
    rfl
  · have away : ∀ isTx, (s.enroll config).mStreams isTx ch = s.mStreams isTx ch :=
      fun isTx => setStream_other fun here => there here.2
    simp only [usedAt, mTxStreams, mRxStreams, away]

theorem Linked.count (linked : s.Linked) : s.usedCount ≤ s.streamSize := by
  have le : ∀ ch, (s.usedAt ch).toNat ≤ (enabled s.register7 ch).toNat :=
    fun ch => Bool.toNat_le_toNat (linked.cover ch)
  rw [linked.size]
  exact Nat.add_le_add (le 0) (le 1)

theorem usedCount_pos (used : s.usedAt ch = true) : 0 < s.usedCount := by
  have one : (s.usedAt ch).toNat = 1 := by
    rw [used]
    rfl
  have le : (s.usedAt ch).toNat ≤ s.usedCount := by
    fin_cases ch
    · exact Nat.le_add_right _ _
    · exact Nat.le_add_left _ _
  omega

theorem Linked.enroll (linked : s.Linked)
    (used : s.usedAt (index config) = true) (single : s.streamSize = 1)
    (format : config.linkFormat = s.dataLinkFormat) : (s.enroll config).Linked := by
  have size : (s.enroll config).streamSize = s.streamSize := by
    have counted : (s.enroll config).streamSize = s.usedCount := by
      change (s.enroll config).usedCount = s.usedCount
      rw [usedCount, enroll_usedAt used, enroll_usedAt used]
      rfl
    have most := linked.count
    have least := usedCount_pos used
    omega
  have samples : (s.enroll config).samplesInPacket = s.samplesInPacket := by
    rw [samplesInPacket, samplesInPacket, size]
    rfl
  have others : ∀ {isTx ch}, ¬ (isTx = config.isTx ∧ ch = index config) →
      (s.enroll config).mStreams isTx ch = s.mStreams isTx ch := fun other => setStream_other other
  have joined : (s.enroll config).mStreams config.isTx (index config) =
      (s.mStreams config.isTx (index config)).setup config := setStream_self ..
  refine ⟨⟨?_, ?_, ?_, ?_⟩, ?_⟩
  · intro isTx ch used
    by_cases here : isTx = config.isTx ∧ ch = index config
    · obtain ⟨rfl, rfl⟩ := here
      rw [joined]
      exact format
    · rw [others here] at used ⊢
      exact linked.format isTx ch used
  · rw [size]
    exact linked.size
  · intro isTx ch used
    rw [samples]
    by_cases here : isTx = config.isTx ∧ ch = index config
    · obtain ⟨rfl, rfl⟩ := here
      rw [joined]
      refine ⟨_, rfl, ?_⟩
      rw [samplesInPacket, single, Nat.div_one, ← format]
      by_cases compressed : config.linkFormat = FMT_INT12
      · rw [if_neg (not_not_intro compressed), if_pos compressed]
      · rw [if_pos compressed, if_neg compressed]
    · rw [others here] at used ⊢
      exact linked.fifo isTx ch used
  · rw [samples]
    exact linked.loops
  · intro ch there
    rw [enroll_usedAt used] at there
    exact linked.cover ch there

theorem Kept.setup_linked (kept : s.Kept interrupted)
    (clean : s.Clean (.setup config)) (runs : (s.setupStream config).2.running = true) :
    (s.setupStream config).2.Linked := by
  cases s.setupStream_cases config with
  | inl refused =>
    rw [refused] at runs ⊢
    obtain ⟨stays, _⟩ := makeWay_running runs
    rw [stays] at runs ⊢
    exact kept.linked runs
  | inr enrolled =>
    obtain ⟨unused, accepted, result⟩ := enrolled
    rw [result] at runs ⊢
    obtain ⟨stays, used⟩ := @makeWay_running s config runs
    rw [stays] at runs accepted ⊢
    have format := accepted runs
    exact (kept.linked runs).enroll used (clean runs used unused format) format

theorem Kept.perform {call : StreamCall} (kept : s.Kept interrupted)
    (clean : s.Clean call) (performed : s.perform call = some s') :
    s'.Kept (s.interruption interrupted call) := by
  obtain ⟨all, synced⟩ := perform_threads kept.all kept.synced performed
  refine ⟨all, synced, ?_⟩
  intro runs
  cases call with
  | setup config =>
    cases performed
    exact kept.setup_linked clean runs
  | start isTx ch => exact kept.start_linked clean performed runs
  | stop isTx ch =>
    cases performed
    exact kept.stop_linked (clean _ rfl) runs
  | close isTx ch =>
    cases performed
    exact kept.close_linked clean runs

theorem new_kept (dataLinkFormat : StreamDataFormat) (register7 : UInt16) :
    (Streamer.new dataLinkFormat register7).Kept false where
  all _ _ := ⟨fun _ => rfl, rfl⟩
  synced _ := rfl
  linked runs := Bool.noConfusion runs

end Streamer

namespace StreamerSession

open Streamer

/-- No thread runs and no channel is set up. -/
def new (dataLinkFormat : StreamDataFormat) (register7 : UInt16) : StreamerSession :=
  ⟨.new dataLinkFormat register7, false⟩

theorem run_threads {s s' : StreamerSession} (run : Runs Step (fun _ _ => True) s s')
    (threads : s.streamer.AllSound ∧ s.streamer.Synced s.interrupted) :
    s'.streamer.AllSound ∧ s'.streamer.Synced s'.interrupted := by
  apply run.keeps _ threads
  intro s call s' threads _ step
  rw [step.2]
  exact perform_threads threads.1 threads.2 step.1

theorem run_kept {s s' : StreamerSession}
    (run : Runs Step (fun s call => s.streamer.Clean call) s s')
    (kept : s.streamer.Kept s.interrupted) : s'.streamer.Kept s'.interrupted := by
  apply run.keeps _ kept
  intro s call s' kept clean step
  rw [step.2]
  exact kept.perform clean step.1

/-- The threads are those of the active channels, unless the stream is interrupted. From where no
    thread runs, clean calls lead to matching sizes and formats only. -/
theorem streamer_coherence (dataLinkFormat : StreamDataFormat) (register7 : UInt16)
    {s : StreamerSession} (run : Runs Step (fun _ _ => True) (new dataLinkFormat register7) s) :
    s.streamer.Synced s.interrupted ∧
      (s.streamer.running = false → ∀ s', Runs Step (fun s call => s.streamer.Clean call) s s' →
        s'.streamer.running = true → s'.streamer.Matched) := by
  have first := new_kept dataLinkFormat register7
  obtain ⟨all, synced⟩ := run_threads run ⟨first.all, first.synced⟩
  refine ⟨synced, ?_⟩
  intro rests s' clean runs
  have linked : s.streamer.running = true → s.streamer.Linked := by
    intro running
    rw [rests] at running
    cases running
  exact ((run_kept clean ⟨all, synced, linked⟩).linked runs).toMatched

/-- A receiver of the channel index, compressed, with the default buffer. -/
def receiver (channelID : UInt8) : StreamConfig := ⟨false, channelID, 0, FMT_INT12⟩

/-- The receiver of channel index 0 is set up. -/
def ready : Streamer := ((Streamer.new FMT_INT12 0).setupStream (receiver 0)).2

/-- The receiver of channel index 0 runs. -/
def receiving : Streamer :=
  (ready.setStream false 0 { ready.mStreams false 0 with mActive := true }).updateThreads false

theorem ready_step : Step (new FMT_INT12 0) (.setup (receiver 0)) ⟨ready, false⟩ := ⟨rfl, rfl⟩

theorem receiving_step : Step ⟨ready, false⟩ (.start false 0) ⟨receiving, false⟩ := ⟨rfl, rfl⟩

theorem streamer_coherence_receiving : receiving.running = true ∧ receiving.Matched := by
  have settled : ready.Settled := ⟨rfl, FMT_INT12, by decide, by decide⟩
  have clean : Runs Step (fun s call => s.streamer.Clean call) (new FMT_INT12 0)
      ⟨receiving, false⟩ :=
    (Runs.refl.tail ready_step Bool.noConfusion).tail receiving_step
      fun _ _ _ _ => settled
  exact ⟨rfl, (streamer_coherence FMT_INT12 0 Runs.refl).2 rfl _ clean rfl⟩

/-- The setup of the second receiver stops the first one, which stays active. -/
theorem streamer_interrupted :
    ¬ ∀ s, Runs Step (fun _ _ => True) (new FMT_INT12 0) s →
      ∀ isTx, (s.streamer.thread isTx).isSome = s.streamer.need isTx := by
  intro always
  have step : Step ⟨receiving, false⟩ (.setup (receiver 1))
      ⟨(receiving.setupStream (receiver 1)).2, true⟩ := ⟨rfl, rfl⟩
  have run : Runs Step (fun _ _ => True) (new FMT_INT12 0)
      ⟨(receiving.setupStream (receiver 1)).2, true⟩ :=
    ((Runs.refl.tail ready_step trivial).tail receiving_step trivial).tail step
  have idle : ((receiving.setupStream (receiver 1)).2.thread false).isSome = false := rfl
  have needed : (receiving.setupStream (receiver 1)).2.need false = true := rfl
  have same := always _ run false
  rw [idle, needed] at same
  cases same

end StreamerSession

end Soapy.Lime
