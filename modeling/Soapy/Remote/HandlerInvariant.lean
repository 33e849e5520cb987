import Soapy.Remote.ClientHandler

/-! # What every request keeps

`Accounts` balances the record of a handler against its stream table: each stream
the device has set up is either in the table or closed, and each thread that was
started is either named in the table or joined, never both and never twice. A
failure that is recorded may upset the balance for good; the rest of the
invariant holds whatever fails.

`perform_spec` says once what a request can do to a handler, and when it ends the
process.
-/

namespace Soapy.Remote

open Lib Handle

@[simp] theorem countOpened_append (events : List Event) (e : Event) :
    countOpened (events ++ [e]) = countOpened events + countOpened [e] := by
  induction events with
  | nil => simp [countOpened]
  | cons head rest ih =>
    cases head <;> simp only [List.cons_append, countOpened, ih]
    omega

@[simp] theorem countStarted_append (events : List Event) (e : Event) :
    countStarted (events ++ [e]) = countStarted events + countStarted [e] := by
  induction events with
  | nil => simp [countStarted]
  | cons head rest ih =>
    cases head <;> simp only [List.cons_append, countStarted, ih]
    omega

def StreamData.threads (data : StreamData) : List Nat :=
  data.streamThread.toList ++ data.statusThread.toList

structure Accounts (events : List Event) (live : List StreamData) : Prop where
  streams : ∀ n, events.count (.closed n) + (live.map StreamData.stream).count n =
    if n < countOpened events then 1 else 0
  threads : ∀ t, events.count (.joined t) + (live.flatMap StreamData.threads).count t =
    if t < countStarted events then 1 else 0

namespace Accounts

variable {events : List Event} {live rest : List StreamData} {data : StreamData} {t n : Nat}

theorem empty : Accounts [] [] := by
  constructor <;> simp [countOpened, countStarted]

theorem opened (h : Accounts events live) :
    Accounts (events ++ [.opened (countOpened events)])
      (live ++ [⟨countOpened events, none, none⟩]) := by
  constructor
  · intro n
    have before := h.streams n
    simp [countOpened, List.count_singleton] at before ⊢
    split at before <;> split <;> split <;> omega
  · intro t
    have before := h.threads t
    simpa [countStarted, StreamData.threads, List.count_singleton] using before

theorem started {data' : StreamData} (h : Accounts events (live ++ [data]))
    (same : data'.stream = data.stream)
    (more : data'.threads.Perm (countStarted events :: data.threads)) :
    Accounts (events ++ [.started (countStarted events)]) (live ++ [data']) := by
  constructor
  · intro n
    have before := h.streams n
    simpa [countOpened, List.count_singleton, same] using before
  · intro t
    have before := h.threads t
    simp [countStarted, List.count_cons, more.count_eq t] at before ⊢
    split at before <;> split <;> split <;> omega

theorem joined {data' : StreamData} (h : Accounts events (data :: rest))
    (same : data'.stream = data.stream) (fewer : data.threads.Perm (t :: data'.threads)) :
    Accounts (events ++ [.joined t]) (data' :: rest) := by
  constructor
  · intro n
    have before := h.streams n
    simpa [countOpened, List.count_singleton, List.count_cons, same] using before
  · intro t'
    have before := h.threads t'
    simp [countStarted, List.count_cons, fewer.count_eq t'] at before ⊢
    split at before <;> split <;> omega

theorem closed (h : Accounts events (⟨n, none, none⟩ :: rest)) :
    Accounts (events ++ [.closed n]) rest := by
  constructor
  · intro n'
    have before := h.streams n'
    simp [countOpened, List.count_cons] at before ⊢
    split at before <;> split <;> omega
  · intro t
    have before := h.threads t
    simpa [countStarted, StreamData.threads, List.count_singleton] using before

theorem perm (h : Accounts events live) (same : live.Perm rest) : Accounts events rest := by
  constructor
  · intro n
    rw [← h.streams n, (same.map StreamData.stream).count_eq n]
  · intro t
    rw [← h.threads t, (same.flatMap_right StreamData.threads).count_eq t]

theorem unjoined (h : Accounts events live) (points : t ∈ live.flatMap StreamData.threads) :
    .joined t ∉ events := by
  intro joined
  have total := h.threads t
  have once := List.count_pos_iff.mpr points
  have again := List.count_pos_iff.mpr joined
  split at total <;> omega

end Accounts

/-- The invariant of a handler. Without a device there are no streams; ids are
    given out in order; no two pointers name the same thread. -/
structure Server.Inv {W : Type} (s : Server W) : Prop where
  device : s.dev = none → s.streamData.entries = []
  ids : ∀ e ∈ s.streamData.entries, e.1 < s.nextStreamId
  distinct : (s.streamData.entries.flatMap (fun e => e.2.threads)).Nodup
  started : ∀ t ∈ s.streamData.entries.flatMap (fun e => e.2.threads), t < countStarted s.events
  accounts : .failed ∉ s.events → Accounts s.events (s.streamData.entries.map Prod.snd)

namespace Server.Inv

variable {W : Type} {s s' : Server W}

theorem init (world : W) : (Server.init world).Inv where
  device _ := rfl
  ids := by simp [Server.init, OrdMap.empty]
  distinct := by simp [Server.init, OrdMap.empty]
  started := by simp [Server.init, OrdMap.empty]
  accounts _ := Accounts.empty

theorem congr (h : s.Inv) (dev : s'.dev = s.dev := by rfl)
    (ids : s'.nextStreamId = s.nextStreamId := by rfl)
    (table : s'.streamData = s.streamData := by rfl) (events : s'.events = s.events := by rfl) :
    s'.Inv := by
  refine ⟨?_, ?_, ?_, ?_, ?_⟩
  · rw [dev, table]
    exact h.device
  · rw [ids, table]
    exact h.ids
  · rw [table]
    exact h.distinct
  · rw [table, events]
    exact h.started
  · rw [table, events]
    exact h.accounts

theorem fail (h : s.Inv) (dev : s'.dev = s.dev) (ids : s'.nextStreamId = s.nextStreamId)
    (table : s'.streamData.entries.Sublist s.streamData.entries)
    (grown : countStarted s.events ≤ countStarted s'.events) (failed : .failed ∈ s'.events) :
    s'.Inv := by
  have threads := table.flatMap (fun e => e.2.threads)
  refine ⟨fun none => ?_, fun e member => ?_, h.distinct.sublist threads, fun t member => ?_,
    fun clean => absurd failed clean⟩
  · rw [dev] at none
    rw [h.device none] at table
    exact List.sublist_nil.mp table
  · rw [ids]
    exact h.ids e (table.subset member)
  · exact lt_of_lt_of_le (h.started t (threads.subset member)) grown

end Server.Inv

section Calls

variable {W α : Type} {s : Server W} {Q : α → Server W → Prop} {R : Stop → Server W → Prop}

theorem wp_outside {f : W → Except Exn α × W}
    (returns : ∀ a w, f s.world = (.ok a, w) → Q a { s with world := w })
    (throws : ∀ e w, f s.world = (.error e, w) → R (.thrown e) { s with world := w }) :
    Action.wp (outside f) Q R s := by
  unfold Action.wp outside
  cases answer : f s.world with
  | mk result w =>
    cases result with
    | ok a => exact returns a w answer
    | error e => exact throws e w answer

theorem wp_critical {f : W → Except Exn α × W}
    (returns : ∀ a w, f s.world = (.ok a, w) → Q a { s with world := w })
    (throws : ∀ e w, R (.thrown e) { s with world := w, events := s.events ++ [.failed] }) :
    Action.wp (critical f) Q R s := by
  rw [critical, Action.wp_rescue]
  refine wp_outside returns (fun e w _ => ?_)
  rw [Action.wp_bind]
  exact throws e w

theorem wp_device {Q : DevicePtr → Server W → Prop} (found : ∀ dev, s.dev = some dev → Q dev s)
    (null : s.dev = none → R .crashed s) : Action.wp device Q R s := by
  rw [device, Action.wp_bind, Action.wp_get]
  cases dev : s.dev with
  | none => exact null dev
  | some d => exact found d dev

theorem wp_joinThread {Q : Unit → Server W → Prop} (thread : Option Nat)
    (null : thread = none → Q () s) (joins : ∀ t, thread = some t → .joined t ∉ s.events →
      Q () { s with events := s.events ++ [.joined t] })
    (again : ∀ t, thread = some t → .joined t ∈ s.events → R .crashed s) :
    Action.wp (joinThread thread) Q R s := by
  cases thread with
  | none => exact null rfl
  | some t =>
    rw [joinThread, Action.wp_bind, Action.wp_get]
    by_cases joined : .joined t ∈ s.events
    · rw [if_pos joined, Action.wp_bind]
      exact again t rfl joined
    · rw [if_neg joined]
      exact joins t rfl joined

end Calls

/-- `s'` is `s` after some of `threads` were joined and streams were closed. -/
structure Torn {W : Type} (threads : List Nat) (s s' : Server W) : Prop where
  dev : s'.dev = s.dev
  ids : s'.nextStreamId = s.nextStreamId
  table : s'.streamData = s.streamData
  count : countStarted s'.events = countStarted s.events
  joined : ∀ t, .joined t ∈ s'.events → .joined t ∈ s.events ∨ t ∈ threads
  failed : .failed ∈ s.events → .failed ∈ s'.events

namespace Torn

variable {W : Type} {threads : List Nat} {s s' s'' : Server W}

theorem refl (threads : List Nat) (s : Server W) : Torn threads s s :=
  ⟨rfl, rfl, rfl, rfl, fun _ h => .inl h, id⟩

theorem trans (h : Torn threads s s') (h' : Torn threads s' s'') : Torn threads s s'' where
  dev := h'.dev.trans h.dev
  ids := h'.ids.trans h.ids
  table := h'.table.trans h.table
  count := h'.count.trans h.count
  joined t member := (h'.joined t member).elim (h.joined t) .inr
  failed before := h'.failed (h.failed before)

theorem mono {more : List Nat} (h : Torn threads s s') (sub : threads ⊆ more) : Torn more s s' :=
  { h with joined := fun t member => (h.joined t member).imp_right (@sub t) }

theorem inv (h : Torn threads s s') (inv : s.Inv) (failed : .failed ∈ s'.events) : s'.Inv :=
  inv.fail h.dev h.ids (by rw [h.table]) h.count.ge failed

end Torn

section Teardown

variable {W : Type} (env : World W) {s : Server W}

theorem torn_joined {thread : Nat} :
    Torn [thread] s { s with events := s.events ++ [.joined thread] } := by
  refine ⟨rfl, rfl, rfl, by simp [countStarted], fun t member => ?_, List.mem_append_left _⟩
  simpa using member

theorem torn_record {threads : List Nat} {e : Event} {w : W} (plain : countStarted [e] = 0)
    (other : ∀ t, e ≠ .joined t) :
    Torn threads s { s with world := w, events := s.events ++ [e] } := by
  refine ⟨rfl, rfl, rfl, by simp [plain], fun t member => ?_, List.mem_append_left _⟩
  rcases List.mem_append.mp member with before | last
  · exact .inl before
  · exact absurd (List.mem_singleton.mp last).symm (other t)

theorem joinThread_spec (thread : Option Nat) (data data' : StreamData)
    (unchanged : thread = none → data' = data) (same : data'.stream = data.stream)
    (fewer : ∀ t, thread = some t → data.threads.Perm (t :: data'.threads)) :
    Action.wp (joinThread thread)
      (fun _ s' => Torn thread.toList s s' ∧ ∀ rest, Accounts s.events (data :: rest) →
        Accounts s'.events (data' :: rest))
      (fun stop _ => stop = .crashed ∧ ∃ t ∈ thread.toList, .joined t ∈ s.events) s := by
  refine wp_joinThread thread (fun null => ?_) (fun t points _ => ?_) (fun t points joined => ?_)
  · rw [unchanged null]
    exact ⟨Torn.refl _ s, fun _ accounts => accounts⟩
  · rw [points]
    exact ⟨torn_joined, fun _ accounts => accounts.joined same (fewer t points)⟩
  · exact ⟨rfl, t, by simp [points], joined⟩

theorem stopThreads_spec (data : StreamData) (distinct : data.threads.Nodup) :
    Action.wp (stopThreads data)
      (fun _ s' => Torn data.threads s s' ∧ ∀ rest, Accounts s.events (data :: rest) →
        Accounts s'.events (⟨data.stream, none, none⟩ :: rest))
      (fun stop _ => stop = .crashed ∧ ∃ t ∈ data.threads, .joined t ∈ s.events) s := by
  obtain ⟨stream, streamThread, statusThread⟩ := data
  rw [stopThreads, Action.wp_bind]
  have first := joinThread_spec (s := s) streamThread
    ⟨stream, streamThread, statusThread⟩ ⟨stream, none, statusThread⟩
    (fun null => by rw [null]) rfl (fun t points => by simp [StreamData.threads, points])
  refine Action.wp_mono first (fun _ s₁ left => ?_) (fun stop _ crash => ?_)
  · obtain ⟨torn, balance⟩ := left
    have second := joinThread_spec (s := s₁) statusThread
      ⟨stream, none, statusThread⟩ ⟨stream, none, none⟩
      (fun null => by rw [null]) rfl (fun t points => by simp [StreamData.threads, points])
    refine Action.wp_mono second (fun _ s₂ right => ?_) (fun stop _ crash => ?_)
    · obtain ⟨torn', balance'⟩ := right
      refine ⟨(torn.mono ?_).trans (torn'.mono ?_),
        fun rest accounts => balance' rest (balance rest accounts)⟩
      · exact List.subset_append_left _ _
      · exact List.subset_append_right _ _
    · obtain ⟨rfl, t, points, joined⟩ := crash
      have other : t ∉ streamThread.toList := fun member =>
        (List.nodup_append.mp distinct).2.2 t member t points rfl
      exact ⟨rfl, t, List.mem_append_right _ points,
        (torn.joined t joined).resolve_right other⟩
  · obtain ⟨rfl, t, points, joined⟩ := crash
    exact ⟨rfl, t, List.mem_append_left _ points, joined⟩

theorem closeEntry_spec (data : StreamData) (distinct : data.threads.Nodup) :
    Action.wp (closeEntry env data) (fun _ s' => Torn data.threads s s' ∧ s.dev.isSome ∧
        ∀ rest, Accounts s.events (data :: rest) → Accounts s'.events rest)
      (fun stop s' =>
        (stop = .crashed ∧ (s.dev = none ∨ ∃ t ∈ data.threads, .joined t ∈ s.events)) ∨
        (∃ e, stop = .thrown e) ∧ Torn data.threads s s' ∧ .failed ∈ s'.events) s := by
  rw [closeEntry, Action.wp_bind]
  refine Action.wp_mono (stopThreads_spec data distinct) (fun _ s₁ stopped => ?_)
    (fun stop _ crash => .inl ⟨crash.1, .inr crash.2⟩)
  obtain ⟨torn, balance⟩ := stopped
  rw [closeStream, Action.wp_bind]
  refine wp_device (fun dev found => ?_) (fun null => .inl ⟨rfl, .inl (torn.dev ▸ null)⟩)
  have device : s.dev.isSome := by rw [← torn.dev, found]; rfl
  have closing : Torn data.threads s { s₁ with events := s₁.events ++ [.closed data.stream] } :=
    torn.trans (torn_record rfl (by simp))
  rw [Action.wp_bind]
  refine wp_critical (fun _ w _ => ⟨?_, device, fun rest accounts => ?_⟩) (fun e w => ?_)
  · exact closing.trans ⟨rfl, rfl, rfl, rfl, fun _ => .inl, id⟩
  · exact (balance rest accounts).closed
  · exact .inr ⟨⟨e, rfl⟩, closing.trans (torn_record rfl (by simp)), by simp⟩

end Teardown

def Server.threads {W : Type} (s : Server W) : List Nat :=
  s.streamData.entries.flatMap (fun e => e.2.threads)

def Server.Unjoined {W : Type} (s : Server W) : Prop := ∀ t ∈ s.threads, .joined t ∉ s.events

/-- How a teardown from `s` ends that does not return. -/
def TeardownStops {W : Type} (s : Server W) (stop : Stop) (s' : Server W) : Prop :=
  (stop = .crashed ∧ ¬ s.Unjoined) ∨
    (∃ e, stop = .thrown e) ∧ Torn s.threads s s' ∧ .failed ∈ s'.events

theorem closeAll_spec {W : Type} (env : World W) {s : Server W} (inv : s.Inv) :
    Action.wp (closeAll env) (fun _ s' => Torn s.threads s s' ∧
        (Accounts s.events (s.streamData.entries.map Prod.snd) → Accounts s'.events []))
      (TeardownStops s) s := by
  -- The streams closed so far are `done`; their threads are the only ones joined.
  let Loop : List (Int × StreamData) → Server W → Prop := fun rest s' =>
    ∃ done, s.streamData.entries = done ++ rest ∧
      Torn (done.flatMap (fun e => e.2.threads)) s s' ∧
      (Accounts s.events (s.streamData.entries.map Prod.snd) → Accounts s'.events (rest.map Prod.snd))
  have start : Loop s.streamData.entries s := ⟨[], rfl, Torn.refl _ s, id⟩
  have step : ∀ entry rest s', Loop (entry :: rest) s' →
      Action.wp (closeEntry env entry.2) (fun _ => Loop rest) (TeardownStops s) s' := by
    rintro entry rest s' ⟨done, split, torn, balance⟩
    have distinct := inv.distinct
    rw [split, List.flatMap_append, List.flatMap_cons] at distinct
    obtain ⟨_, later, apart⟩ := List.nodup_append.mp distinct
    have own := (List.nodup_append.mp later).1
    have soFar : Torn s.threads s s' := torn.mono (by
      rw [Server.threads, split, List.flatMap_append]
      exact List.subset_append_left _ _)
    have mine : entry.2.threads ⊆ s.threads := by
      rw [Server.threads, split, List.flatMap_append, List.flatMap_cons]
      exact fun t member => List.mem_append_right _ (List.mem_append_left _ member)
    refine Action.wp_mono (closeEntry_spec env entry.2 own) (fun _ s'' closed => ?_)
      (fun stop s'' stops => ?_)
    · obtain ⟨torn', _, balance'⟩ := closed
      refine ⟨done ++ [entry], by simp [split], ?_, fun accounts => balance' _ (balance accounts)⟩
      rw [List.flatMap_append, List.flatMap_singleton]
      exact (torn.mono (List.subset_append_left _ _)).trans
        (torn'.mono (List.subset_append_right _ _))
    · rcases stops with ⟨rfl, null | ⟨t, points, joined⟩⟩ | ⟨threw, torn', failed⟩
      · have nothing := inv.device (torn.dev ▸ null)
        rw [split] at nothing
        simp at nothing
      · refine .inl ⟨rfl, fun unjoined => ?_⟩
        rcases torn.joined t joined with before | earlier
        · exact unjoined t (mine points) before
        · exact apart t earlier t (List.mem_append_left _ points) rfl
      · exact .inr ⟨threw, soFar.trans (torn'.mono mine), failed⟩
  rw [closeAll, Action.wp_bind, Action.wp_get]
  refine Action.wp_mono (Action.wp_forEach Loop step _ s start) (fun _ s' ended => ?_)
    (fun _ _ stops => stops)
  obtain ⟨done, split, torn, balance⟩ := ended
  rw [List.append_nil] at split
  rw [Server.threads, split]
  rw [split] at balance
  exact ⟨torn, balance⟩

/-- The stream `id` was entered last, with the given data. -/
structure Staged {W : Type} (id : Int) (data : StreamData) (s : Server W) : Prop where
  inv : s.Inv
  last : ∃ before, s.streamData.entries = before ++ [(id, data)]

namespace Staged

variable {W : Type} {id : Int} {data data' : StreamData} {s s' : Server W}

theorem congr (h : Staged id data s) (dev : s'.dev = s.dev := by rfl)
    (ids : s'.nextStreamId = s.nextStreamId := by rfl)
    (table : s'.streamData = s.streamData := by rfl) (events : s'.events = s.events := by rfl) :
    Staged id data s' :=
  ⟨h.inv.congr dev ids table events, by rw [table]; exact h.last⟩

theorem fail (h : Staged id data s) (dev : s'.dev = s.dev) (ids : s'.nextStreamId = s.nextStreamId)
    (table : s'.streamData = s.streamData ∨ s'.streamData = s.streamData.erase id)
    (grown : countStarted s.events ≤ countStarted s'.events) (failed : .failed ∈ s'.events) :
    s'.Inv := by
  refine h.inv.fail dev ids ?_ grown failed
  rcases table with same | erased
  · rw [same]
  · rw [erased, OrdMap.erase]
    exact List.filter_sublist

theorem opened (inv : s.Inv) (device : s.dev.isSome) {w : W} :
    Staged s.nextStreamId ⟨countOpened s.events, none, none⟩ { s with
      world := w
      events := s.events ++ [.opened (countOpened s.events)]
      streamData := s.streamData.insert s.nextStreamId ⟨countOpened s.events, none, none⟩
      nextStreamId := s.nextStreamId + 1 } := by
  have table := s.streamData.insert_above s.nextStreamId ⟨countOpened s.events, none, none⟩ inv.ids
  have threads : (s.streamData.entries ++
      [(s.nextStreamId, (⟨countOpened s.events, none, none⟩ : StreamData))]).flatMap
        (fun e => e.2.threads) = s.streamData.entries.flatMap (fun e => e.2.threads) := by
    simp [StreamData.threads]
  refine ⟨⟨fun null => ?_, fun e member => ?_, ?_, fun t member => ?_, fun clean => ?_⟩, _, table⟩
  · change s.dev = none at null
    rw [null] at device
    exact absurd device (by simp)
  · rw [table] at member
    rcases List.mem_append.mp member with old | new
    · exact lt_trans (inv.ids e old) (by simp)
    · rw [List.mem_singleton.mp new]
      simp
  · rw [table, threads]
    exact inv.distinct
  · rw [table, threads] at member
    rw [countStarted_append]
    exact lt_of_lt_of_le (inv.started t member) (Nat.le_add_right _ _)
  · have balanced := inv.accounts (fun failed => clean (List.mem_append_left _ failed))
    rw [table, List.map_append]
    exact balanced.opened

theorem started (h : Staged id data s) (same : data'.stream = data.stream)
    (more : data'.threads.Perm (countStarted s.events :: data.threads)) :
    Staged id data' { s with
      events := s.events ++ [.started (countStarted s.events)]
      streamData := s.streamData.insert id data' } := by
  obtain ⟨before, last⟩ := h.last
  have table := OrdMap.insert_last data' last
  have grown : ((before ++ [(id, data')]).flatMap (fun e => e.2.threads)).Perm
      (countStarted s.events :: (before ++ [(id, data)]).flatMap (fun e => e.2.threads)) := by
    simp only [List.flatMap_append, List.flatMap_singleton]
    exact (List.Perm.append_left _ more).trans List.perm_middle
  have bound := h.inv.started
  have distinct := h.inv.distinct
  rw [last] at bound distinct
  refine ⟨⟨fun null => ?_, fun e member => ?_, ?_, fun t member => ?_, fun clean => ?_⟩, before, table⟩
  · have nothing := h.inv.device null
    rw [last] at nothing
    simp at nothing
  · rw [table] at member
    have ids := h.inv.ids
    rw [last] at ids
    rcases List.mem_append.mp member with old | new
    · exact ids e (List.mem_append_left _ old)
    · rw [List.mem_singleton.mp new]
      exact ids (id, data) (List.mem_append_right _ List.mem_cons_self)
  · rw [table, grown.nodup_iff, List.nodup_cons]
    exact ⟨fun member => absurd (bound _ member) (lt_irrefl _), distinct⟩
  · rw [table, grown.mem_iff, List.mem_cons] at member
    simp only [countStarted_append, countStarted]
    rcases member with rfl | old
    · omega
    · exact lt_trans (bound t old) (by omega)
  · have balanced := h.inv.accounts (fun failed => clean (List.mem_append_left _ failed))
    rw [last, List.map_append] at balanced
    rw [table, List.map_append]
    exact balanced.started same more

end Staged

/-- How SETUP_STREAM ends that fails after the device has set the stream up. -/
def SetupFails {W : Type} (stop : Stop) (s' : Server W) : Prop :=
  (∃ e, stop = .thrown e) ∧ s'.Inv ∧ .failed ∈ s'.events

section Setup

variable {W : Type} (env : World W) {s : Server W} {id : Int} {data : StreamData}

theorem openStream_spec (inv : s.Inv) (direction : Int32) (format : Bytes) (channels : List UInt64)
    (args : Kwargs) :
    Action.wp (openStream env direction format channels args)
      (fun entry s' => Staged entry.1 entry.2 s' ∧ entry.2.threads = [] ∧ s.dev.isSome ∧
        ∃ dev w, s.dev = some dev ∧
          env.setupStream dev direction format channels args s.world = (.ok (), w))
      (fun stop s' =>
        (stop = .crashed ∧ (s.dev = none ∨ s.nextStreamId + 1 = 2 ^ 31 ∧ ∃ dev w,
          s.dev = some dev ∧
          env.setupStream dev direction format channels args s.world = (.ok (), w))) ∨
        (∃ e, stop = .thrown e) ∧ ∃ w, s' = { s with world := w }) s := by
  rw [openStream, Action.wp_bind]
  refine wp_device (fun dev found => ?_) (fun null => .inl ⟨rfl, .inl null⟩)
  rw [Action.wp_bind]
  refine wp_outside (fun _ w granted => ?_) (fun e w _ => .inr ⟨⟨e, rfl⟩, w, rfl⟩)
  have fresh := OrdMap.find?_above inv.ids
  have granted' : ∃ dev w, s.dev = some dev ∧
      env.setupStream dev direction format channels args s.world = (.ok (), w) :=
    ⟨dev, w, found, granted⟩
  simp only [Action.wp_bind, Action.wp_get, record, Action.wp_modify, fresh, Option.getD_none]
  split
  · rename_i overflow
    rw [Action.wp_bind, Action.wp_stop]
    exact .inl ⟨rfl, .inr ⟨overflow, granted'⟩⟩
  · refine ⟨?_, rfl, by rw [found]; rfl, granted'⟩
    exact Staged.opened inv (by rw [found]; rfl)

theorem failSetup_spec {α : Type} {Q : α → Server W → Prop} (text : Bytes)
    (fails : Server.Inv { s with events := s.events ++ [.failed] }) :
    Action.wp (failSetup text) Q SetupFails s := by
  rw [failSetup, Action.wp_bind]
  exact ⟨⟨_, rfl⟩, fails, by simp⟩

section

variable (staged : Staged id data s)
include staged

theorem socketStep_spec {α : Type} (url : Bytes) (what : String)
    (call : Bytes → W → Except Bytes α × W) :
    Action.wp (socketStep id url what call) (fun _ s' => Staged id data s') SetupFails s := by
  rw [socketStep, Action.wp_bind]
  refine wp_outside (fun result w _ => ?_) (fun e w failed => by simp at failed)
  cases result with
  | ok a => exact staged.congr
  | error errorMsg =>
    simp only [eraseData, Action.wp_bind, Action.wp_modify]
    exact failSetup_spec _ (staged.fail rfl rfl (.inr rfl) (by simp) (by simp))

theorem udpSockets_spec (bindURL clientBindPort statusBindPort : Bytes) :
    Action.wp (udpSockets env id bindURL clientBindPort statusBindPort)
      (fun _ s' => Staged id data s') SetupFails s := by
  rw [udpSockets, Action.wp_bind]
  refine Action.wp_mono (socketStep_spec staged _ _ _) (fun _ s₁ bound => ?_) (fun _ _ h => h)
  rw [Action.wp_bind]
  refine Action.wp_mono (socketStep_spec bound _ _ _) (fun _ s₂ stream => ?_) (fun _ _ h => h)
  rw [Action.wp_bind]
  exact Action.wp_mono (socketStep_spec stream _ _ _) (fun _ _ status => status) (fun _ _ h => h)

theorem tcpSockets_spec (bindURL : Bytes) :
    Action.wp (tcpSockets env id bindURL) (fun _ s' => Staged id data s') SetupFails s := by
  rw [tcpSockets, Action.wp_bind]
  refine Action.wp_mono (socketStep_spec staged _ _ _) (fun _ s₁ bound => ?_) (fun _ _ h => h)
  rw [Action.wp_bind]
  refine wp_critical (fun _ w _ => ?_) (fun e w => ⟨⟨e, rfl⟩, ?_, by simp⟩)
  · rw [Action.wp_bind, Action.wp_modify, Action.wp_bind]
    refine wp_outside (fun streamSock w₁ _ => ?_) (fun e w₁ failed => by simp at failed)
    rw [Action.wp_bind]
    refine wp_outside (fun statusSock w₂ _ => ?_) (fun e w₂ failed => by simp at failed)
    split
    · rw [Action.wp_bind, Action.wp_get, Action.wp_bind]
      exact failSetup_spec _ (bound.fail rfl rfl (.inl rfl) (by simp) (by simp))
    · exact bound.congr
  · exact bound.fail rfl rfl (.inl rfl) (by simp) (by simp)

theorem createEndpoint_spec (numChans : Nat) (elemSize mtu : UInt64) :
    Action.wp (createEndpoint env numChans elemSize mtu) (fun _ s' => Staged id data s')
      (fun stop s' => (stop = .crashed ∧ (numChans = 0 ∨ elemSize = 0)) ∨ SetupFails stop s') s := by
  simp only [createEndpoint]
  split
  · rename_i zero
    exact .inl ⟨rfl, zero⟩
  · split
    · exact Action.wp_mono (failSetup_spec _ (staged.fail rfl rfl (.inl rfl) (by simp) (by simp)))
        (fun _ _ h => h) (fun _ _ h => .inr h)
    · refine wp_critical (fun _ w _ => staged.congr)
        (fun e w => .inr ⟨⟨e, rfl⟩, ?_, by simp⟩)
      exact staged.fail rfl rfl (.inl rfl) (by simp) (by simp)

theorem startThread_spec {data' : Nat → StreamData} (same : ∀ t, (data' t).stream = data.stream)
    (more : ∀ t, (data' t).threads.Perm (t :: data.threads)) :
    Action.wp (do let t ← startThread env; setData id (data' t); pure (data' t))
      (fun entry s' => Staged id entry s' ∧ ∃ t, entry = data' t) SetupFails s := by
  rw [Action.wp_bind, startThread, Action.wp_bind]
  refine wp_critical (fun _ w _ => ?_) (fun e w => ⟨⟨e, rfl⟩, ?_, by simp⟩)
  · have running : Staged id data { s with world := w } := staged.congr
    exact ⟨running.started (same _) (more _), _, rfl⟩
  · exact staged.fail rfl rfl (.inl rfl) (by simp) (by simp)

theorem connectSockets_spec
    (prot clientBindPort statusBindPort : Bytes) :
    Action.wp (connectSockets env prot clientBindPort statusBindPort id)
      (fun _ s' => Staged id data s') SetupFails s := by
  simp only [connectSockets]
  split
  · exact udpSockets_spec env staged _ _ _
  · exact tcpSockets_spec env staged _

theorem startStreamThread_spec (free : data.threads = []) (direction : Int32) :
    Action.wp (startStreamThread env direction id data)
      (fun entry s' => Staged id entry s' ∧ entry.statusThread = none) SetupFails s := by
  have none : data.streamThread = none ∧ data.statusThread = none := by
    simpa [StreamData.threads] using free
  rw [startStreamThread]
  split
  · refine Action.wp_mono (startThread_spec env staged (fun _ => rfl) (fun t => ?_))
      (fun entry s' started => ?_) (fun _ _ h => h)
    · simp [StreamData.threads, none]
    · obtain ⟨entered, t, rfl⟩ := started
      exact ⟨entered, none.2⟩
  · exact ⟨staged, none.2⟩

theorem startStatThread_spec (free : data.statusThread = none) :
    Action.wp (startStatThread env id data) (fun entry s' => Staged id entry s') SetupFails s := by
  refine Action.wp_mono (startThread_spec env staged (fun _ => rfl) (fun t => ?_))
    (fun entry s' started => started.1) (fun _ _ h => h)
  simp [StreamData.threads, free]

theorem finishSetup_spec (free : data.threads = []) (direction : Int32)
    (format : Bytes) (channels : List UInt64) (mtu : UInt64)
    (prot clientBindPort statusBindPort : Bytes) :
    Action.wp (finishSetup env direction format channels mtu prot clientBindPort statusBindPort
        id data)
      (fun reply s' => s'.Inv ∧ ∃ rest, reply = RemoteTypes.INT32.code :: rest)
      (fun stop s' => (stop = .crashed ∧ (channels = [] ∨ formatToSize format = 0)) ∨
        SetupFails stop s') s := by
  rw [finishSetup, Action.wp_bind]
  refine Action.wp_mono (connectSockets_spec env staged _ _ _) (fun _ s₁ connected => ?_)
    (fun _ _ h => .inr h)
  rw [Action.wp_bind]
  refine Action.wp_mono (createEndpoint_spec env connected _ _ _) (fun _ s₂ created => ?_)
    (fun stop _ h => ?_)
  · rw [Action.wp_bind]
    refine Action.wp_mono (startStreamThread_spec env created free direction)
      (fun entry s₃ streaming => ?_) (fun _ _ h => .inr h)
    rw [Action.wp_bind]
    refine Action.wp_mono (startStatThread_spec env streaming.1 streaming.2)
      (fun _ s₄ reporting => ?_) (fun _ _ h => .inr h)
    exact ⟨reporting.inv, _, rfl⟩
  · rcases h with ⟨crashed, zero⟩ | fails
    · exact .inl ⟨crashed, zero.imp_left List.length_eq_zero_iff.mp⟩
    · exact .inr fails

end

end Setup

namespace Request

def NeedsDevice : Request → Prop
  | .device _ | .query _ | .setupStream .. | .closeStream _ | .activateStream ..
  | .deactivateStream .. | .setupStreamBypass .. => True
  | _ => False

def IsSetup : Request → Prop
  | .setupStream .. | .setupStreamBypass .. => True
  | _ => False

def Accepted {W : Type} (env : World W) (s : Server W) (direction : Int32) (format : Bytes)
    (channels : List UInt64) (args : Kwargs) : Prop :=
  ∃ dev w, s.dev = some dev ∧
    env.setupStream dev direction format channels args s.world = (.ok (), w)

/-- A method is called, or a stream set up, on a handler with a device; the counter of stream ids
    has room; the stream has channels and elements of a size; a stream is closed whose threads were
    not joined before. -/
def Serviceable {W : Type} (env : World W) (s : Server W) : Request → Prop
  | .device _ | .query _ => s.dev.isSome
  | .setupStream direction format channels args _ _ =>
    (streamMtu env args).isOk → s.dev.isSome ∧ (Accepted env s direction format channels args →
      s.nextStreamId + 1 ≠ 2 ^ 31 ∧ channels ≠ [] ∧ formatToSize format ≠ 0)
  | .setupStreamBypass direction format channels args =>
    s.dev.isSome ∧ (Accepted env s direction format channels args →
      s.nextStreamId + 1 ≠ 2 ^ 31)
  | .closeStream streamId => ∀ data, s.streamData.find? streamId.toInt = some data →
      ∀ t ∈ data.threads, .joined t ∉ s.events
  | .unmake => s.Unjoined
  | _ => True

structure Returned {W : Type} (s : Server W) (request : Request) (reply : Bytes) (s' : Server W) :
    Prop where
  inv : s'.Inv
  device : request.NeedsDevice → s.dev.isSome
  reply : request.IsSetup → ∃ rest, reply = RemoteTypes.INT32.code :: rest

/-- What a request that does not return leaves behind. -/
structure Threw {W : Type} (s : Server W) (request : Request) (s' : Server W) : Prop where
  inv : s'.Inv
  setup : request.IsSetup → .failed ∉ s'.events →
    s'.streamData = s.streamData ∧ s'.events = s.events

def Stopped {W : Type} (env : World W) (s : Server W) (request : Request) (stop : Stop)
    (s' : Server W) : Prop :=
  (stop = .crashed ∧ ¬ request.Serviceable env s) ∨
    (∃ e, stop = .thrown e) ∧ request.Threw s s'

end Request

section Requests

variable {W : Type} (env : World W) {s : Server W}

theorem threw_world {request : Request} (inv : s.Inv) {w : W} :
    request.Threw s { s with world := w } :=
  ⟨inv.congr, fun _ _ => ⟨rfl, rfl⟩⟩

theorem returned_plain {request : Request} {reply : Bytes} {s' : Server W} (inv : s'.Inv)
    (noDevice : ¬ request.NeedsDevice) (noSetup : ¬ request.IsSetup) :
    request.Returned s reply s' :=
  ⟨inv, fun h => absurd h noDevice, fun h => absurd h noSetup⟩

theorem make_spec (inv : s.Inv) (version : UInt32) (args : Kwargs) :
    Action.wp (perform env version (.make args)) ((Request.make args).Returned s)
      ((Request.make args).Stopped env s) s := by
  rw [perform, Action.wp_bind, Action.wp_get]
  split
  · rw [Action.wp_bind]
    refine wp_outside (fun dev w _ => ?_) (fun e w _ => .inr ⟨⟨e, rfl⟩, threw_world inv⟩)
    have made : Server.Inv { s with world := w, dev := some dev } :=
      { inv with device := fun null => by simp at null }
    exact returned_plain made id id
  · exact returned_plain inv id id

theorem unmake_spec (inv : s.Inv) (version : UInt32) :
    Action.wp (perform env version .unmake) (Request.unmake.Returned s)
      (Request.unmake.Stopped env s) s := by
  rw [perform, Action.wp_bind]
  refine Action.wp_mono (closeAll_spec env inv) (fun _ s₁ closed => ?_) (fun stop s₁ stops => ?_)
  · obtain ⟨torn, balance⟩ := closed
    have empty : ∀ s' : Server W, s'.streamData = .empty → s'.events = s₁.events → s'.Inv := by
      intro s' table events
      have none : s'.streamData.entries = [] := by rw [table]; rfl
      refine ⟨fun _ => none, by simp [none], by simp [none], by simp [none], fun clean => ?_⟩
      rw [events] at clean ⊢
      rw [none]
      exact balance (inv.accounts (fun failed => clean (torn.failed failed)))
    rw [Action.wp_bind, Action.wp_modify, Action.wp_bind, unmakeDevice, Action.wp_bind,
      Action.wp_get]
    split
    · exact returned_plain (empty _ rfl rfl) id id
    · exact returned_plain (empty _ rfl rfl) id id
  · rcases stops with ⟨crashed, joined⟩ | ⟨threw, torn, failed⟩
    · exact .inl ⟨crashed, joined⟩
    · exact .inr ⟨threw, torn.inv inv failed, fun h => h.elim⟩

theorem wp_dataAt {Q : StreamData → Server W → Prop} {R : Stop → Server W → Prop} (streamId : Int32)
    (found : ∀ data, s.streamData.find? streamId.toInt = some data → Q data s)
    (missing : ∀ e, R (.thrown e) s) : Action.wp (dataAt streamId) Q R s := by
  rw [dataAt, Action.wp_bind, Action.wp_get]
  cases entry : s.streamData.find? streamId.toInt with
  | none => exact missing _
  | some data => exact found data entry

theorem closeStream_spec (inv : s.Inv) (version : UInt32) (streamId : Int32) :
    Action.wp (perform env version (.closeStream streamId))
      ((Request.closeStream streamId).Returned s) ((Request.closeStream streamId).Stopped env s) s := by
  rw [perform, Action.wp_bind]
  refine wp_dataAt streamId (fun data entry => ?_)
    (fun e => .inr ⟨⟨e, rfl⟩, threw_world inv⟩)
  obtain ⟨before, after, split, erased⟩ := OrdMap.find?_split entry
  have member : (streamId.toInt, data) ∈ s.streamData.entries := by simp [split]
  have distinct := inv.distinct
  rw [split, List.flatMap_append, List.flatMap_cons] at distinct
  have own := (List.nodup_append.mp (List.nodup_append.mp distinct).2.1).1
  have order : (s.streamData.entries.map Prod.snd).Perm (data :: (before ++ after).map Prod.snd) := by
    rw [split, List.map_append, List.map_append]
    exact List.perm_middle
  rw [Action.wp_bind]
  refine Action.wp_mono (closeEntry_spec env data own) (fun _ s₁ closed => ?_) (fun stop s₁ stops => ?_)
  · obtain ⟨torn, device, balance⟩ := closed
    have sub : (s₁.streamData.erase streamId.toInt).entries.Sublist s.streamData.entries := by
      rw [torn.table]
      exact List.filter_sublist
    have threads := sub.flatMap (fun e => e.2.threads)
    have left : Server.Inv { s₁ with streamData := s₁.streamData.erase streamId.toInt } := by
      refine ⟨fun null => ?_, fun e member => ?_, inv.distinct.sublist threads, fun t member => ?_,
        fun clean => ?_⟩
      · have nothing := inv.device (torn.dev ▸ null)
        simp [nothing] at member
      · rw [show s₁.nextStreamId = s.nextStreamId from torn.ids]
        exact inv.ids e (sub.subset member)
      · rw [show countStarted s₁.events = countStarted s.events from torn.count]
        exact inv.started t (threads.subset member)
      · rw [torn.table, erased]
        exact balance _ ((inv.accounts (fun failed => clean (torn.failed failed))).perm order)
    exact ⟨left, fun _ => device, fun h => h.elim⟩
  · rcases stops with ⟨rfl, null | ⟨t, points, joined⟩⟩ | ⟨threw, torn, failed⟩
    · have nothing := inv.device null
      simp [nothing] at member
    · exact .inl ⟨rfl, fun fresh => fresh data entry t points joined⟩
    · exact .inr ⟨threw, torn.inv inv failed, fun h => h.elim⟩

theorem setupStream_spec (inv : s.Inv) (version : UInt32) (direction : Int32) (format : Bytes)
    (channels : List UInt64) (args : Kwargs) (clientBindPort statusBindPort : Bytes) :
    Action.wp (perform env version
        (.setupStream direction format channels args clientBindPort statusBindPort))
      ((Request.setupStream direction format channels args clientBindPort statusBindPort).Returned s)
      ((Request.setupStream direction format channels args clientBindPort statusBindPort).Stopped
        env s) s := by
  rw [perform, setupStream, Action.wp_bind]
  refine wp_outside (fun mtu w parsed => ?_) (fun e w _ => .inr ⟨⟨e, rfl⟩, threw_world inv⟩)
  simp only [Prod.mk.injEq] at parsed
  obtain ⟨parsed, rfl⟩ := parsed
  have readable : (streamMtu env args).isOk := by rw [parsed]; rfl
  rw [Action.wp_bind]
  refine Action.wp_mono (openStream_spec env inv direction format channels args)
    (fun entry s₁ opened => ?_) (fun stop s₁ stops => ?_)
  · obtain ⟨staged, free, device, accepted⟩ := opened
    refine Action.wp_mono (finishSetup_spec env staged free direction format channels mtu _ _ _)
      (fun reply s₂ finished => ⟨finished.1, fun _ => device, fun _ => finished.2⟩)
      (fun stop s₂ stops => ?_)
    rcases stops with ⟨crashed, zero⟩ | ⟨threw, kept, failed⟩
    · refine .inl ⟨crashed, fun serviceable => ?_⟩
      obtain ⟨_, some, size⟩ := (serviceable readable).2 accepted
      exact zero.elim some size
    · exact .inr ⟨threw, kept, fun _ clean => absurd failed clean⟩
  · rcases stops with ⟨crashed, null | ⟨overflow, accepted⟩⟩ | ⟨threw, w, rfl⟩
    · refine .inl ⟨crashed, fun serviceable => ?_⟩
      have device := (serviceable readable).1
      simp [null] at device
    · exact .inl ⟨crashed, fun serviceable => ((serviceable readable).2 accepted).1 overflow⟩
    · exact .inr ⟨threw, threw_world inv⟩

theorem setupStreamBypass_spec (inv : s.Inv) (version : UInt32) (direction : Int32)
    (format : Bytes) (channels : List UInt64) (args : Kwargs) :
    Action.wp (perform env version (.setupStreamBypass direction format channels args))
      ((Request.setupStreamBypass direction format channels args).Returned s)
      ((Request.setupStreamBypass direction format channels args).Stopped env s) s := by
  rw [perform, Action.wp_bind]
  refine Action.wp_mono (openStream_spec env inv direction format channels args)
    (fun entry s₁ opened => ?_) (fun stop s₁ stops => ?_)
  · obtain ⟨staged, _, device, _⟩ := opened
    exact ⟨staged.inv, fun _ => device, fun _ => ⟨_, rfl⟩⟩
  · rcases stops with ⟨crashed, null | ⟨overflow, accepted⟩⟩ | ⟨threw, w, rfl⟩
    · refine .inl ⟨crashed, fun serviceable => ?_⟩
      have device := serviceable.1
      simp [null] at device
    · exact .inl ⟨crashed, fun serviceable => serviceable.2 accepted overflow⟩
    · exact .inr ⟨threw, threw_world inv⟩

theorem wp_ask {α : Type} {request : Request} (inv : s.Inv) {pack : α → Bytes}
    {f : DevicePtr → W → Except Exn α × W}
    (null : s.dev = none → ¬ request.Serviceable env s) (noSetup : ¬ request.IsSetup) :
    Action.wp (do let dev ← device; let a ← outside (f dev); pure (pack a))
      (request.Returned s) (request.Stopped env s) s := by
  rw [Action.wp_bind]
  refine wp_device (fun dev found => ?_) (fun none => .inl ⟨rfl, null none⟩)
  rw [Action.wp_bind]
  refine wp_outside (fun a w _ => ?_) (fun e w _ => .inr ⟨⟨e, rfl⟩, threw_world inv⟩)
  exact ⟨inv.congr, fun _ => by rw [found]; rfl, fun h => absurd h noSetup⟩

theorem perform_spec (inv : s.Inv) (version : UInt32) (request : Request) :
    Action.wp (perform env version request) (request.Returned s) (request.Stopped env s) s := by
  have unknown : ∀ streamId : Int32, ∀ data, s.streamData.find? streamId.toInt = some data →
      s.dev = none → False := by
    intro streamId data entry null
    obtain ⟨before, after, split, _⟩ := OrdMap.find?_split entry
    simp [inv.device null] at split
  cases request with
  | find args =>
    rw [perform, Action.wp_bind]
    exact wp_outside (fun _ w _ => returned_plain inv.congr id id)
      (fun e w _ => .inr ⟨⟨e, rfl⟩, threw_world inv⟩)
  | make args => exact make_spec env inv version args
  | unmake => exact unmake_spec env inv version
  | hangup => exact returned_plain inv id id
  | getServerId => exact returned_plain inv id id
  | startLogForwarding => exact returned_plain inv.congr id id
  | stopLogForwarding => exact returned_plain inv.congr id id
  | device c =>
    rw [perform, Action.wp_bind, callMethod, Action.wp_bind]
    refine wp_device (fun dev found => ?_) (fun null => .inl ⟨rfl, ?_⟩)
    · rw [Action.wp_bind, Action.wp_modify]
      refine wp_outside (fun r w _ => ?_) (fun e w _ => .inr ⟨⟨e, rfl⟩, ?_⟩)
      · exact ⟨inv.congr, fun _ => by rw [found]; rfl, fun h => h.elim⟩
      · exact ⟨inv.congr, fun h => h.elim⟩
    · simp [Request.Serviceable, null]
  | query q => exact wp_ask env inv (fun null => by simp [Request.Serviceable, null]) id
  | setupStream direction format channels args clientBindPort statusBindPort =>
    exact setupStream_spec env inv version direction format channels args _ _
  | closeStream streamId => exact closeStream_spec env inv version streamId
  | activateStream streamId flags timeNs numElems =>
    rw [perform, Action.wp_bind]
    refine wp_dataAt streamId (fun data entry => ?_) (fun e => .inr ⟨⟨e, rfl⟩, threw_world inv⟩)
    exact wp_ask env inv (fun null => (unknown streamId data entry null).elim) id
  | deactivateStream streamId flags timeNs =>
    rw [perform, Action.wp_bind]
    refine wp_dataAt streamId (fun data entry => ?_) (fun e => .inr ⟨⟨e, rfl⟩, threw_world inv⟩)
    exact wp_ask env inv (fun null => (unknown streamId data entry null).elim) id
  | setupStreamBypass direction format channels args =>
    exact setupStreamBypass_spec env inv version direction format channels args

end Requests

end Soapy.Remote
