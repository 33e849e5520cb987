import Soapy.Lib.Runs

/-! # The streams of a SoapySDRPlay device

Activating a stream raises the reference count of its channel and closing one lowers it. The
application holds what `setupStream` returned until it closes it. Two set-ups of a channel return one
object when the channel has an activated stream.
-/

namespace Soapy.Receive.SDRPlayStreams

open Lib

/-- A stream object, by its channel and the number of its allocation. -/
structure Stream where
  channel : Fin 2
  serial : Nat
deriving DecidableEq

/-- What the application got, and how often it has activated it. -/
structure Handle where
  stream : Stream
  activations : Nat

/-- Behind the fields it is kept whether the hardware is initialised, and for each call of
    `sdrplay_api_Uninit` whether it was. -/
structure State where
  _streams : Fin 2 → Option Stream
  _streamsRefCount : Fin 2 → Int
  streamActive : Bool
  initialised : Bool
  created : List Stream
  deleted : List Stream
  uninits : List Bool
  handles : List Handle

def State.start : State := ⟨fun _ => none, fun _ => 0, false, false, [], [], [], []⟩

/-- For a channel and a format that pass the checks. -/
def setupStream (s : State) (channel : Fin 2) : State :=
  match s._streams channel with
  | some stream => { s with handles := ⟨stream, 0⟩ :: s.handles }
  | none =>
    let stream : Stream := ⟨channel, s.created.length⟩
    { s with created := stream :: s.created, handles := ⟨stream, 0⟩ :: s.handles }

/-- `init` is whether `sdrplay_api_Init` succeeds. -/
def activateStream (s : State) (stream : Stream) (flags : Int32) (init : Bool) : State :=
  if flags ≠ 0 then s
  else
    let s := { s with
      _streams := fun i => if i = stream.channel then some stream else s._streams i
      _streamsRefCount := fun i =>
        if i = stream.channel then s._streamsRefCount i + 1 else s._streamsRefCount i }
    if s.streamActive then s
    else if init then { s with streamActive := true, initialised := true }
    else s

/-- `_streamsRefCount` behind `_streamsRefCount[i]--`. -/
def refCount (s : State) (stream : Stream) (i : Fin 2) : Int :=
  if s._streams i = some stream then s._streamsRefCount i - 1 else s._streamsRefCount i

/-- The condition of `deleteStream = true`. -/
abbrev Ends (s : State) (stream : Stream) (i : Fin 2) : Prop :=
  s._streams i = some stream ∧ refCount s stream i = 0

def closeStream (s : State) (stream : Stream) : State :=
  let s' := { s with
    _streams := fun i => if Ends s stream i then none else s._streams i
    _streamsRefCount := refCount s stream
    deleted := if ∃ i, Ends s stream i then stream :: s.deleted else s.deleted }
  if refCount s stream 0 + refCount s stream 1 = 0 then
    { s' with streamActive := false, initialised := false, uninits := s.initialised :: s.uninits }
  else s'

/-- The calls of the application, on its `i`-th handle. -/
inductive Action where
  | setupStream (channel : Fin 2)
  | activateStream (i : Nat) (flags : Int32) (init : Bool)
  | deactivateStream (i : Nat)
  | closeStream (i : Nat)

def step (s : State) : Action → Option State
  | .setupStream channel => some (setupStream s channel)
  | .activateStream i flags init => (s.handles[i]?).map fun h =>
    { activateStream s h.stream flags init with
      handles := if flags ≠ 0 then s.handles else s.handles.set i ⟨h.stream, h.activations + 1⟩ }
  | .deactivateStream i => (s.handles[i]?).map fun _ => s
  | .closeStream i => (s.handles[i]?).map fun h =>
    { closeStream s h.stream with handles := s.handles.eraseIdx i }

abbrev Step (s : State) (a : Action) (s' : State) : Prop := step s a = some s'

/-- No stream is deleted twice, the callbacks get none that is, and the hardware was initialised
    whenever it is un-initialised. At the end all streams are deleted, and none is active. -/
structure Sound (s : State) : Prop where
  once : s.deleted.Nodup
  callbacks : ∀ i stream, s._streams i = some stream → stream ∉ s.deleted
  uninits : ∀ initialised ∈ s.uninits, initialised = true
  ended : s.handles = [] → (∀ stream ∈ s.created, stream ∈ s.deleted) ∧ s.streamActive = false

/-- A handle is activated once, with no other stream on its channel and with an `Init` that does not
    fail, and before any handle of its stream is closed. -/
def Proper (s : State) : Action → Prop
  | .setupStream _ | .deactivateStream _ => True
  | .activateStream i flags init => flags = 0 → ∀ h, s.handles[i]? = some h →
      h.activations = 0 ∧ (∀ other, s._streams h.stream.channel = some other → other = h.stream) ∧
        (s.streamActive = true ∨ init = true)
  | .closeStream i => ∀ h, s.handles[i]? = some h →
      ∀ h' ∈ s.handles, h'.stream = h.stream → h'.activations ≠ 0

def On (i : Fin 2) (h : Handle) : Bool := h.stream.channel = i && h.activations = 1

structure Inv (s : State) : Prop where
  held : ∀ h ∈ s.handles, h.stream ∈ s.created ∧ h.stream ∉ s.deleted ∧ h.activations ≤ 1
  live : ∀ stream ∈ s.created, stream ∉ s.deleted → ∃ h ∈ s.handles, h.stream = stream
  numbered : ∀ stream ∈ s.created, stream.serial < s.created.length
  once : s.deleted.Nodup
  gone : ∀ stream ∈ s.deleted, stream ∈ s.created
  counts : ∀ i, s._streamsRefCount i = s.handles.countP (On i)
  current : ∀ i stream, s._streams i = some stream ↔
    ∃ h ∈ s.handles, On i h = true ∧ h.stream = stream
  active : s.streamActive = true ↔ ∃ h ∈ s.handles, h.activations = 1
  hardware : s.initialised = s.streamActive
  uninits : ∀ initialised ∈ s.uninits, initialised = true

variable {s : State} {h : Handle} {rest : List Handle}

theorem on_iff {i : Fin 2} : On i h = true ↔ h.stream.channel = i ∧ h.activations = 1 := by
  simp [On]

theorem Inv.perm (inv : Inv s) {l : List Handle} (perm : s.handles.Perm l) :
    Inv { s with handles := l } where
  held := fun h member => inv.held h (perm.mem_iff.mpr member)
  live := fun stream made kept =>
    (inv.live stream made kept).imp fun _ found => ⟨perm.mem_iff.mp found.1, found.2⟩
  numbered := inv.numbered
  once := inv.once
  gone := inv.gone
  counts := fun i => (inv.counts i).trans (congrArg Int.ofNat (perm.countP_eq _))
  current := fun i stream => (inv.current i stream).trans
    (exists_congr fun _ => and_congr_left' perm.mem_iff)
  active := inv.active.trans (exists_congr fun _ => and_congr_left' perm.mem_iff)
  hardware := inv.hardware
  uninits := inv.uninits

theorem Inv.setup (inv : Inv s) (channel : Fin 2) : Inv (setupStream s channel) := by
  have idle : ∀ stream i, On i ⟨stream, 0⟩ = false := fun stream i => by simp [On]
  rw [setupStream]
  split
  · rename_i stream shared
    obtain ⟨h, member, -, same⟩ := (inv.current channel stream).mp shared
    refine { inv with held := ?_, live := ?_, counts := ?_, current := ?_, active := ?_ }
    · rintro h' (_ | ⟨_, member'⟩)
      · have := inv.held h member
        rw [same] at this
        exact ⟨this.1, this.2.1, Nat.zero_le _⟩
      · exact inv.held h' member'
    · exact fun stream made kept =>
        (inv.live stream made kept).imp fun _ found => ⟨.tail _ found.1, found.2⟩
    · simpa [List.countP_cons, idle] using inv.counts
    · simpa [idle] using inv.current
    · simpa using inv.active
  · have fresh : (⟨channel, s.created.length⟩ : Stream) ∉ s.created := fun member =>
      Nat.lt_irrefl _ (inv.numbered _ member)
    refine { inv with
      held := ?_, live := ?_, numbered := ?_, gone := ?_, counts := ?_, current := ?_, active := ?_ }
    · rintro h' (_ | ⟨_, member'⟩)
      · exact ⟨List.mem_cons_self, fun gone => fresh (inv.gone _ gone), Nat.zero_le _⟩
      · have := inv.held h' member'
        exact ⟨.tail _ this.1, this.2⟩
    · rintro stream (_ | ⟨_, made⟩) kept
      · exact ⟨_, List.mem_cons_self, rfl⟩
      · exact (inv.live stream made kept).imp fun _ found => ⟨.tail _ found.1, found.2⟩
    · rintro stream (_ | ⟨_, made⟩)
      · exact Nat.lt_succ_self _
      · exact Nat.lt_succ_of_lt (inv.numbered stream made)
    · exact fun stream gone => .tail _ (inv.gone stream gone)
    · simpa [List.countP_cons, idle] using inv.counts
    · simpa [idle] using inv.current
    · simpa using inv.active

theorem Inv.activate (inv : Inv { s with handles := h :: rest }) (once : h.activations = 0)
    (alone : ∀ other, s._streams h.stream.channel = some other → other = h.stream) {init : Bool}
    (ok : s.streamActive = true ∨ init = true) :
    Inv { activateStream s h.stream 0 init with handles := ⟨h.stream, 1⟩ :: rest } := by
  have idle : ∀ i, On i h = false := fun i => by simp [On, once]
  have base : activateStream s h.stream 0 init = { s with
      _streams := fun i => if i = h.stream.channel then some h.stream else s._streams i
      _streamsRefCount := fun i =>
        if i = h.stream.channel then s._streamsRefCount i + 1 else s._streamsRefCount i
      streamActive := true, initialised := true } := by
    have hardware : s.initialised = s.streamActive := inv.hardware
    rw [activateStream, if_neg (fun other => other rfl)]
    by_cases active : s.streamActive = true
    · simp [active, hardware]
    · simp [active, ok.resolve_left active]
  have held := inv.held
  have current := inv.current
  have counts := inv.counts
  simp only [List.mem_cons, exists_eq_or_imp, idle, List.countP_cons, Bool.false_eq_true, if_false,
    false_and, false_or, Nat.add_zero] at held current counts
  rw [base]
  refine { inv with held := ?_, live := ?_, counts := ?_, current := ?_, active := ?_, hardware := rfl }
  · rintro h' (_ | ⟨_, member⟩)
    · exact ⟨(held h (.inl rfl)).1, (held h (.inl rfl)).2.1, Nat.le_refl _⟩
    · exact held h' (.inr member)
  · intro stream made kept
    obtain ⟨h', member, same⟩ := inv.live stream made kept
    rcases List.mem_cons.mp member with rfl | member
    · exact ⟨_, List.mem_cons_self, same⟩
    · exact ⟨h', .tail _ member, same⟩
  · intro i
    by_cases here : i = h.stream.channel
    · simp [On, here, counts]
    · simp [On, here, Ne.symm here, counts]
  · intro i stream
    by_cases here : i = h.stream.channel
    · simp only [here, if_true, Option.some.injEq, List.mem_cons, exists_eq_or_imp]
      constructor
      · exact fun same => .inl ⟨by simp [On], same⟩
      · rintro (⟨-, same⟩ | other)
        · exact same
        · exact (alone stream ((current _ stream).mpr other)).symm
    · have apart : On i ⟨h.stream, 1⟩ = false := by simp [On, Ne.symm here]
      simp [here, apart, current]
  · exact ⟨fun _ => ⟨_, List.mem_cons_self, rfl⟩, fun _ => rfl⟩

theorem Inv.close (inv : Inv { s with handles := h :: rest })
    (activated : ∀ h' ∈ h :: rest, h'.stream = h.stream → h'.activations ≠ 0) :
    Inv { closeStream s h.stream with handles := rest } := by
  have held : ∀ h' ∈ h :: rest, h'.stream ∈ s.created ∧ h'.stream ∉ s.deleted ∧ h'.activations ≤ 1 :=
    inv.held
  have current : ∀ i stream, s._streams i = some stream ↔
      ∃ h' ∈ h :: rest, On i h' = true ∧ h'.stream = stream := inv.current
  have one : ∀ h' ∈ h :: rest, h'.stream = h.stream → h'.activations = 1 := fun h' member same => by
    have := (held h' member).2.2
    have := activated h' member same
    omega
  have here : ∀ i, s._streams i = some h.stream ↔ i = h.stream.channel := by
    intro i
    rw [current]
    constructor
    · rintro ⟨h', -, on, same⟩
      rw [← same, (on_iff.mp on).1]
    · rintro rfl
      exact ⟨h, List.mem_cons_self, on_iff.mpr ⟨rfl, one h List.mem_cons_self rfl⟩, rfl⟩
  -- all activated handles of the channel have this stream
  have same_stream : ∀ h' ∈ rest, On h.stream.channel h' = true → h'.stream = h.stream := by
    intro h' member on
    have own := (current _ h'.stream).mpr ⟨h', .tail _ member, on, rfl⟩
    rw [(here _).mpr rfl] at own
    exact (Option.some.inj own).symm
  have counts : ∀ i, refCount s h.stream i = (rest.countP (On i) : Int) := by
    intro i
    have before : s._streamsRefCount i = ((h :: rest).countP (On i) : Int) := inv.counts i
    rw [refCount, before, List.countP_cons]
    by_cases at_i : i = h.stream.channel
    · rw [if_pos ((here i).mpr at_i), if_pos (on_iff.mpr ⟨at_i.symm, one h List.mem_cons_self rfl⟩)]
      omega
    · rw [if_neg (at_i ∘ (here i).mp), if_neg fun on => at_i (on_iff.mp on).1.symm]
      rfl
  have none_left : ∀ i, (rest.countP (On i) : Int) = 0 ↔ ∀ h' ∈ rest, On i h' ≠ true := fun i => by
    rw [Int.natCast_eq_zero, List.countP_eq_zero]
  have total : (rest.countP (On 0) : Int) + rest.countP (On 1) = 0 ↔ ¬ ∃ h' ∈ rest, h'.activations = 1 := by
    rw [show (rest.countP (On 0) : Int) + rest.countP (On 1) = 0 ↔
      (rest.countP (On 0) : Int) = 0 ∧ (rest.countP (On 1) : Int) = 0 by omega, none_left, none_left]
    constructor
    · rintro ⟨zero, first⟩ ⟨h', member, active⟩
      have either : h'.stream.channel = 0 ∨ h'.stream.channel = 1 := by omega
      rcases either with at_zero | at_one
      · exact zero h' member (on_iff.mpr ⟨at_zero, active⟩)
      · exact first h' member (on_iff.mpr ⟨at_one, active⟩)
    · exact fun none => ⟨fun h' member on => none ⟨h', member, (on_iff.mp on).2⟩,
        fun h' member on => none ⟨h', member, (on_iff.mp on).2⟩⟩
  have initialised : s.initialised = true := by
    have hardware : s.initialised = s.streamActive := inv.hardware
    rw [hardware]
    exact inv.active.mpr ⟨h, List.mem_cons_self, one h List.mem_cons_self rfl⟩
  have ends : (∃ i, Ends s h.stream i) ↔ ∀ h' ∈ rest, On h.stream.channel h' ≠ true := by
    simp only [Ends, counts, none_left, here, exists_eq_left]
  have core : ∀ active initialised uninits,
      (active = true ↔ ∃ h' ∈ rest, h'.activations = 1) → initialised = active →
      (∀ initialised ∈ uninits, initialised = true) →
      Inv { s with
        _streams := fun i => if Ends s h.stream i then none else s._streams i
        _streamsRefCount := refCount s h.stream
        deleted := if ∃ i, Ends s h.stream i then h.stream :: s.deleted else s.deleted
        streamActive := active, initialised := initialised, uninits := uninits, handles := rest } := by
    intro active initialised uninits isActive hardware sound
    refine ⟨?_, ?_, inv.numbered, ?_, ?_, counts, ?_, isActive, hardware, sound⟩
    · intro h' member
      obtain ⟨made, kept, few⟩ := held h' (.tail _ member)
      refine ⟨made, ?_, few⟩
      split
      · rename_i last
        intro gone
        rcases List.mem_cons.mp gone with same | gone
        · exact ends.mp last h' member (on_iff.mpr ⟨by rw [same], one h' (.tail _ member) same⟩)
        · exact kept gone
      · exact kept
    · intro stream made kept
      have alive : stream ∉ s.deleted := by
        intro gone
        split at kept
        · exact kept (.tail _ gone)
        · exact kept gone
      obtain ⟨h', member, rfl⟩ := inv.live stream made alive
      rcases List.mem_cons.mp member with rfl | member
      · split at kept
        · exact absurd List.mem_cons_self kept
        · rename_i more
          rw [ends] at more
          push Not at more
          obtain ⟨h', member, on⟩ := more
          exact ⟨h', member, same_stream h' member on⟩
      · exact ⟨h', member, rfl⟩
    · split
      · exact List.nodup_cons.mpr ⟨(held h List.mem_cons_self).2.1, inv.once⟩
      · exact inv.once
    · intro stream gone
      split at gone
      · rcases List.mem_cons.mp gone with rfl | gone
        · exact (held h List.mem_cons_self).1
        · exact inv.gone stream gone
      · exact inv.gone stream gone
    · intro i stream
      simp only [Ends, counts, none_left, here]
      by_cases at_i : i = h.stream.channel ∧ ∀ h' ∈ rest, On i h' ≠ true
      · rw [if_pos at_i]
        exact ⟨nofun, fun ⟨h', member, on, _⟩ => absurd on (at_i.2 h' member)⟩
      · rw [if_neg at_i, current]
        constructor
        · rintro ⟨h', member, on, same⟩
          rcases List.mem_cons.mp member with rfl | member
          · have at_h := (on_iff.mp on).1
            have more : ¬ ∀ h'' ∈ rest, On i h'' ≠ true := fun none => at_i ⟨at_h.symm, none⟩
            push Not at more
            obtain ⟨h'', member, on'⟩ := more
            exact ⟨h'', member, on', (same_stream h'' member (at_h ▸ on')).trans same⟩
          · exact ⟨h', member, on, same⟩
        · exact fun ⟨h', member, found⟩ => ⟨h', .tail _ member, found⟩
  rw [closeStream]
  dsimp only
  split
  · rename_i zero
    rw [counts, counts, total] at zero
    exact core false false _ ⟨nofun, fun some => absurd some zero⟩ rfl
      (List.forall_mem_cons.mpr ⟨initialised, inv.uninits⟩)
  · rename_i more
    rw [counts, counts, total, not_not] at more
    have active : s.streamActive = true := inv.active.mpr
      ⟨h, List.mem_cons_self, one h List.mem_cons_self rfl⟩
    exact core s.streamActive s.initialised s.uninits ⟨fun _ => more, fun _ => active⟩ inv.hardware
      inv.uninits

theorem Inv.step {s s' : State} {a : Action} (inv : Inv s) (proper : Proper s a)
    (taken : Step s a s') : Inv s' := by
  have at_head : ∀ {i : Nat} {h : Handle}, s.handles[i]? = some h →
      Inv { s with handles := h :: s.handles.eraseIdx i } ∧
        (h :: s.handles.eraseIdx i).Perm s.handles := by
    intro i h here
    obtain ⟨inside, rfl⟩ := List.getElem?_eq_some_iff.mp here
    have perm := List.getElem_cons_eraseIdx_perm inside
    exact ⟨inv.perm perm.symm, perm⟩
  cases a with
  | setupStream channel =>
    obtain rfl := Option.some.inj taken
    exact inv.setup channel
  | activateStream i flags init =>
    obtain ⟨h, here, rfl⟩ := Option.map_eq_some_iff.mp taken
    by_cases refused : flags ≠ 0
    · rw [activateStream, if_pos refused, if_pos refused]
      exact inv
    · rw [ne_eq, not_not] at refused
      obtain ⟨once, alone, ok⟩ := proper refused h here
      have inside := (List.getElem?_eq_some_iff.mp here).1
      rw [refused, if_neg (fun other => other rfl), once]
      exact ((at_head here).1.activate once alone ok).perm
        (List.set_perm_cons_eraseIdx inside _).symm
  | deactivateStream i =>
    obtain ⟨h, here, rfl⟩ := Option.map_eq_some_iff.mp taken
    exact inv
  | closeStream i =>
    obtain ⟨h, here, rfl⟩ := Option.map_eq_some_iff.mp taken
    obtain ⟨headed, perm⟩ := at_head here
    exact headed.close fun h' member => proper h here h' (perm.mem_iff.mp member)

/-- In every run of proper calls the streams are sound in every state. -/
theorem streams_sound {s : State} (run : Runs Step Proper .start s) : Sound s := by
  have start : Inv .start :=
    ⟨nofun, nofun, nofun, .nil, nofun, fun _ => rfl, fun _ _ => ⟨nofun, nofun⟩, ⟨nofun, nofun⟩, rfl,
      nofun⟩
  have inv := run.keeps (fun _ _ _ inv proper taken => inv.step proper taken) start
  refine ⟨inv.once, fun i stream here => ?_, inv.uninits, fun none => ⟨fun stream made => ?_, ?_⟩⟩
  · obtain ⟨h, member, -, rfl⟩ := (inv.current i stream).mp here
    exact (inv.held h member).2.1
  · by_contra kept
    obtain ⟨h, member, -⟩ := inv.live stream made kept
    rw [none] at member
    cases member
  · by_contra active
    obtain ⟨h, member, -⟩ := inv.active.mp (by simpa using active)
    rw [none] at member
    cases member

theorem streams_sound_once : ∃ s, s.created.length = 1 ∧ s.handles = [] ∧ Sound s :=
  ⟨_, rfl, rfl, streams_sound (
    .head (a := .setupStream 0) rfl trivial <|
    .head (a := .activateStream 0 0 true) rfl (fun _ h here => by
      obtain rfl := Option.some.inj here
      exact ⟨rfl, nofun, .inr rfl⟩) <|
    .head (a := .closeStream 0) rfl (fun h _ h' member _ => by
      rw [List.mem_singleton.mp member]
      exact Nat.one_ne_zero) .refl)⟩

/-- A stream that is closed without an activation stays, and the hardware is un-initialised
    without need. -/
theorem streams_unsound : ∃ s, Runs Step (fun _ _ => True) .start s ∧ s.handles = [] ∧
    s.created = [⟨0, 0⟩] ∧ s.deleted = [] ∧ s.uninits = [false] ∧ ¬ Sound s :=
  ⟨_, .head (a := .setupStream 0) rfl trivial <| .head (a := .closeStream 0) rfl trivial .refl,
    rfl, rfl, rfl, rfl, fun sound => nomatch (sound.ended rfl).1 _ List.mem_cons_self⟩

end Soapy.Receive.SDRPlayStreams
