import Soapy.SDR.Factory

/-! # The life of a device

A device is created, stored, counted up and down, doomed by the `unmake` that takes
its count to zero, and deleted. `Life` is this state machine on its own, and `At`
says how the tables and the threads of the factory look for a device at a point of
it. A step moves at most one device, so the counts agree with the calls that were
made in every reachable state.
-/

namespace Soapy.SDR

open Lib
open Soapy.Remote (Kwargs Exn)

inductive Life where
  | unborn
  /-- Created by the thread, not in the table yet. -/
  | pending (t : Thread) (discoveredArgs : Kwargs)
  /-- In use by one more caller than `others`. -/
  | live (others : Nat)
  /-- The thread is about to delete it. -/
  | doomed (t : Thread) (argsList : List Kwargs)
  | dead

namespace Life

@[simp] def count : Life → Option Nat
  | live others => some (others + 1)
  | unborn | pending .. | doomed .. | dead => none

/-- `make` has returned the device. -/
@[simp] def Given : Life → Prop
  | live _ | doomed .. | dead => True
  | unborn | pending .. => False

@[simp] def deletions : Life → Nat
  | dead => 1
  | unborn | pending .. | live _ | doomed .. => 0

inductive Step : Life → Life → Prop
  | create (t : Thread) (discoveredArgs : Kwargs) : Step unborn (pending t discoveredArgs)
  | store (t : Thread) (discoveredArgs : Kwargs) : Step (pending t discoveredArgs) (live 0)
  | find (others : Nat) : Step (live others) (live (others + 1))
  | release (others : Nat) : Step (live (others + 1)) (live others)
  | doom (t : Thread) (argsList : List Kwargs) : Step (live 0) (doomed t argsList)
  | delete (t : Thread) (argsList : List Kwargs) : Step (doomed t argsList) dead

end Life

def Call.Holds (d : Device) : Call → Prop
  | .created _ (.ok d') | .deleting d' _ => d' = d
  | .idle | .enumerating _ | .creating .. | .created _ (.error _) | .deleted _ => False

theorem Call.Light.not_holds {c : Call} (light : c.Light) (d : Device) : ¬ c.Holds d := by
  cases c with
  | idle | enumerating | creating => exact id
  | created _ result =>
    cases result with
    | error => exact id
    | ok => exact light.elim
  | deleting | deleted => exact light.elim

def Event.About (d : Device) : Event → Prop
  | .returned _ _ d' | .unmade d' | .deleted d' => d' = d
  | .threw _ => False

namespace Factory

variable {makeFunctions : List Bytes} {s s' : Factory} {a : Action} {d : Device}

@[simp] theorem made_goto (s : Factory) (t : Thread) (c : Call) (d : Device) :
    (s.goto t c).made d = s.made d := rfl

@[simp] theorem unmade_goto (s : Factory) (t : Thread) (c : Call) (d : Device) :
    (s.goto t c).unmade d = s.unmade d := rfl

@[simp] theorem deletions_goto (s : Factory) (t : Thread) (c : Call) (d : Device) :
    (s.goto t c).deletions d = s.deletions d := rfl

section

variable (deviceTable : OrdMap Kwargs (Option Device)) (deviceCounts : OrdMap Device Nat)
  (calls : Thread → Call) (devices : List Kwargs)

@[simp] theorem made_mk (s : Factory) (d : Device) :
    made ⟨deviceTable, deviceCounts, calls, devices, s.events⟩ d = s.made d := rfl

@[simp] theorem unmade_mk (s : Factory) (d : Device) :
    unmade ⟨deviceTable, deviceCounts, calls, devices, s.events⟩ d = s.unmade d := rfl

@[simp] theorem deletions_mk (s : Factory) (d : Device) :
    deletions ⟨deviceTable, deviceCounts, calls, devices, s.events⟩ d = s.deletions d := rfl

end

@[simp] theorem made_record (s : Factory) (e : Event) (d : Device) :
    (s.record e).made d = s.made d +
      match e with
      | .returned _ _ d' => if d' = d then 1 else 0
      | .threw _ | .unmade _ | .deleted _ => 0 := by
  cases e <;> simp [record, made, List.countP_append, List.countP_singleton]

@[simp] theorem unmade_record (s : Factory) (e : Event) (d : Device) :
    (s.record e).unmade d = s.unmade d +
      match e with
      | .unmade d' => if d' = d then 1 else 0
      | .threw _ | .returned .. | .deleted _ => 0 := by
  cases e <;> simp [record, unmade, List.count_append, List.count_singleton]

@[simp] theorem deletions_record (s : Factory) (e : Event) (d : Device) :
    (s.record e).deletions d = s.deletions d +
      match e with
      | .deleted d' => if d' = d then 1 else 0
      | .threw _ | .returned .. | .unmade _ => 0 := by
  cases e <;> simp [record, deletions, List.count_append, List.count_singleton]

structure At (s : Factory) (d : Device) (life : Life) : Prop where
  born : d < s.devices.length ↔ life ≠ .unborn
  counted : s.deviceCounts.find? d = life.count
  balance : s.made d = s.unmade d + life.count.getD 0
  given : 0 < s.made d ↔ life.Given
  deletions : s.deletions d = life.deletions
  listed : ∀ args, s.deviceTable.find? args = some (some d) → life.count.isSome
  creating : ∀ t args, s.calls t = .created args (.ok d) ↔ life = .pending t args
  deleting : ∀ t argsList, s.calls t = .deleting d argsList ↔ life = .doomed t argsList

def Living (s : Factory) : Prop := ∀ d, ∃ life, s.At d life

/-- More calls returned the device than gave it back. -/
def Live (s : Factory) (d : Device) : Prop := s.unmade d < s.made d

theorem At.live_iff {life : Life} (at_ : s.At d life) : s.Live d ↔ life.count.isSome := by
  rw [Live, at_.balance]
  cases life with
  | unborn | pending | live | doomed | dead => simp

/-- The step does not concern the device. -/
structure Apart (s s' : Factory) (d : Device) : Prop where
  born : d < s'.devices.length ↔ d < s.devices.length
  counted : s'.deviceCounts.find? d = s.deviceCounts.find? d
  made : s'.made d = s.made d
  unmade : s'.unmade d = s.unmade d
  deletions : s'.deletions d = s.deletions d
  listed : ∀ args, s'.deviceTable.find? args = some (some d) →
    s.deviceTable.find? args = some (some d)
  creating : ∀ t args, s'.calls t = .created args (.ok d) ↔ s.calls t = .created args (.ok d)
  deleting : ∀ t argsList, s'.calls t = .deleting d argsList ↔ s.calls t = .deleting d argsList

theorem At.apart {life : Life} (at_ : s.At d life) (apart : Apart s s' d) : s'.At d life where
  born := apart.born.trans at_.born
  counted := apart.counted.trans at_.counted
  balance := by
    rw [apart.made, apart.unmade]
    exact at_.balance
  given := by
    rw [apart.made]
    exact at_.given
  deletions := apart.deletions.trans at_.deletions
  listed args found := at_.listed args (apart.listed args found)
  creating t args := (apart.creating t args).trans (at_.creating t args)
  deleting t argsList := (apart.deleting t argsList).trans (at_.deleting t argsList)

theorem goto_calls_iff {t : Thread} {c other : Call} (before : s.calls t ≠ other)
    (after : c ≠ other) (t' : Thread) : (s.goto t c).calls t' = other ↔ s.calls t' = other := by
  by_cases same : t' = t
  · subst same
    simp [goto, before, after]
  · simp [goto, same]

theorem goto_creating {t : Thread} {c : Call} (before : ¬ (s.calls t).Holds d)
    (after : ¬ c.Holds d) (t' : Thread) (args : Kwargs) :
    (s.goto t c).calls t' = .created args (.ok d) ↔ s.calls t' = .created args (.ok d) := by
  apply goto_calls_iff
  · intro same
    rw [same] at before
    exact before rfl
  · intro same
    rw [same] at after
    exact after rfl

theorem goto_deleting {t : Thread} {c : Call} (before : ¬ (s.calls t).Holds d)
    (after : ¬ c.Holds d) (t' : Thread) (argsList : List Kwargs) :
    (s.goto t c).calls t' = .deleting d argsList ↔ s.calls t' = .deleting d argsList := by
  apply goto_calls_iff
  · intro same
    rw [same] at before
    exact before rfl
  · intro same
    rw [same] at after
    exact after rfl

namespace Apart

theorem trans {s'' : Factory} (first : Apart s s' d) (second : Apart s' s'' d) : Apart s s'' d where
  born := second.born.trans first.born
  counted := second.counted.trans first.counted
  made := second.made.trans first.made
  unmade := second.unmade.trans first.unmade
  deletions := second.deletions.trans first.deletions
  listed args found := first.listed args (second.listed args found)
  creating t args := (second.creating t args).trans (first.creating t args)
  deleting t argsList := (second.deleting t argsList).trans (first.deleting t argsList)

theorem goto {t : Thread} {c : Call} (before : ¬ (s.calls t).Holds d) (after : ¬ c.Holds d) :
    Apart s (s.goto t c) d where
  born := Iff.rfl
  counted := rfl
  made := rfl
  unmade := rfl
  deletions := rfl
  listed _ found := found
  creating := goto_creating before after
  deleting := goto_deleting before after

theorem record {e : Event} (other : ¬ e.About d) : Apart s (s.record e) d where
  born := Iff.rfl
  counted := rfl
  made := by
    cases e <;> simp_all [Event.About]
  unmade := by
    cases e <;> simp_all [Event.About]
  deletions := by
    cases e <;> simp_all [Event.About]
  listed _ found := found
  creating _ _ := Iff.rfl
  deleting _ _ := Iff.rfl

theorem ends {t : Thread} {e : Event} (before : ¬ (s.calls t).Holds d) (other : ¬ e.About d) :
    Apart s (s.ends t e) d :=
  (goto before (c := .idle) id).trans (record other)

theorem tables {deviceTable : OrdMap Kwargs (Option Device)} {deviceCounts : OrdMap Device Nat}
    (counted : deviceCounts.find? d = s.deviceCounts.find? d)
    (listed : ∀ args, deviceTable.find? args = some (some d) →
      s.deviceTable.find? args = some (some d)) :
    Apart s { s with deviceTable := deviceTable, deviceCounts := deviceCounts } d where
  born := Iff.rfl
  counted := counted
  made := rfl
  unmade := rfl
  deletions := rfl
  listed := listed
  creating _ _ := Iff.rfl
  deleting _ _ := Iff.rfl

theorem retain {d' : Device} (other : d ≠ d') : Apart s (s.retain d') d :=
  tables ((OrdMap.find?_insert _ _ _ _).trans (if_neg other)) fun _ found => found

theorem insert {d' : Device} (args : Kwargs) (other : d ≠ d') :
    Apart s { s with deviceTable := s.deviceTable.insert args (some d') } d := by
  apply tables rfl
  intro args' found
  rw [OrdMap.find?_insert] at found
  split at found
  · cases found
    exact absurd rfl other
  · exact found

theorem nullify {d' : Device} (other : d ≠ d') :
    Apart s { s with
      deviceCounts := s.deviceCounts.erase d'
      deviceTable := s.deviceTable.mapValues
        (fun entry => if entry = some d' then none else entry) } d := by
  apply tables
  · rw [OrdMap.find?_erase, if_neg other]
  · intro args found
    rw [OrdMap.find?_mapValues, Option.map_eq_some_iff] at found
    obtain ⟨entry, present, kept⟩ := found
    split at kept
    · cases kept
    · rw [present, kept]

theorem eraseAll (argsList : List Kwargs) :
    Apart s { s with deviceTable := s.deviceTable.eraseAll argsList } d := by
  apply tables rfl
  intro args found
  rw [OrdMap.find?_eraseAll] at found
  split at found
  · cases found
  · exact found

theorem create (args : Kwargs) (other : d ≠ s.devices.length) :
    Apart s { s with devices := s.devices ++ [args] } d where
  born := by
    rw [List.length_append, List.length_singleton, Nat.lt_succ_iff]
    exact ⟨fun upTo => lt_of_le_of_ne upTo other, le_of_lt⟩
  counted := rfl
  made := rfl
  unmade := rfl
  deletions := rfl
  listed _ found := found
  creating _ _ := Iff.rfl
  deleting _ _ := Iff.rfl

end Apart

namespace At

variable {t : Thread} {args : Kwargs} {argsList : List Kwargs} {others : Nat}

theorem not_holds {life : Life} (at_ : s.At d life) (given : ∀ args, life ≠ .pending t args)
    (kept : ∀ argsList, life ≠ .doomed t argsList) : ¬ (s.calls t).Holds d := by
  intro holds
  cases c : s.calls t with
  | created args result =>
    cases result with
    | ok d' =>
      rw [c] at holds
      cases holds
      exact given args ((at_.creating t args).mp c)
    | error => simp [c, Call.Holds] at holds
  | deleting d' argsList =>
    rw [c] at holds
    cases holds
    exact kept argsList ((at_.deleting t argsList).mp c)
  | idle | enumerating | creating | deleted => simp [c, Call.Holds] at holds

theorem create (at_ : s.At s.devices.length .unborn) :
    ({ s with devices := s.devices ++ [args] }.goto t (.created args (.ok s.devices.length))).At
      s.devices.length (.pending t args) where
  born := by simp [Factory.goto]
  counted := at_.counted
  balance := by simpa using at_.balance
  given := by simpa using at_.given
  deletions := by simpa using at_.deletions
  listed := at_.listed
  creating t' args' := by
    by_cases same : t' = t
    · subst same
      simp [Factory.goto]
    · have elsewhere := at_.creating t' args'
      simp only [reduceCtorEq, iff_false] at elsewhere
      simp [Factory.goto, same, elsewhere, Ne.symm same]
  deleting t' argsList := by
    by_cases same : t' = t
    · subst same
      simp [Factory.goto]
    · have elsewhere := at_.deleting t' argsList
      simp only [reduceCtorEq, iff_false] at elsewhere
      simp [Factory.goto, same, elsewhere]

theorem store (at_ : s.At d (.pending t args)) :
    (({ s with deviceTable := s.deviceTable.insert args (some d) }.retain d).ends t
      (.returned t args d)).At d (.live 0) where
  born := at_.born.trans (by simp)
  counted := by
    simp [Factory.ends, Factory.goto, Factory.record, Factory.retain, OrdMap.find?_insert,
      at_.counted]
  balance := by
    have balance := at_.balance
    simp [Factory.ends, Factory.retain] at balance ⊢
    omega
  given := by simp [Factory.ends]
  deletions := by simpa [Factory.ends, Factory.retain] using at_.deletions
  listed _ _ := rfl
  creating t' args' := by
    have elsewhere := at_.creating t' args'
    by_cases same : t' = t
    · simp [Factory.ends, Factory.goto, Factory.record, same]
    · simpa [Factory.ends, Factory.goto, Factory.record, Factory.retain, same, Ne.symm same]
        using elsewhere
  deleting t' argsList := by
    have elsewhere := at_.deleting t' argsList
    by_cases same : t' = t
    · simp [Factory.ends, Factory.goto, Factory.record, same]
    · simpa [Factory.ends, Factory.goto, Factory.record, Factory.retain, same] using elsewhere

theorem find (at_ : s.At d (.live others)) :
    ((s.retain d).ends t (.returned t args d)).At d (.live (others + 1)) where
  born := at_.born.trans (by simp)
  counted := by
    simp [Factory.ends, Factory.goto, Factory.record, Factory.retain, OrdMap.find?_insert,
      at_.counted]
  balance := by
    have balance := at_.balance
    simp [Factory.ends, Factory.retain] at balance ⊢
    omega
  given := by simp [Factory.ends]
  deletions := by simpa [Factory.ends, Factory.retain] using at_.deletions
  listed _ _ := rfl
  creating t' args' := by
    have before := at_.not_holds (t := t) (by simp) (by simp)
    have elsewhere := goto_creating before (c := .idle) id t' args'
    exact elsewhere.trans ((at_.creating t' args').trans (by simp))
  deleting t' argsList := by
    have before := at_.not_holds (t := t) (by simp) (by simp)
    have elsewhere := goto_deleting before (c := .idle) id t' argsList
    exact elsewhere.trans ((at_.deleting t' argsList).trans (by simp))

theorem release (at_ : s.At d (.live (others + 1))) :
    ({ s with deviceCounts := s.deviceCounts.insert d (others + 1) }.ends t (.unmade d)).At d
      (.live others) where
  born := at_.born.trans (by simp)
  counted := by
    simp [Factory.ends, Factory.goto, Factory.record, OrdMap.find?_insert]
  balance := by
    have balance := at_.balance
    simp [Factory.ends] at balance ⊢
    omega
  given := by
    have balance := at_.balance
    simp [Factory.ends] at balance ⊢
    omega
  deletions := by simpa [Factory.ends] using at_.deletions
  listed _ _ := rfl
  creating t' args' := by
    have before := at_.not_holds (t := t) (by simp) (by simp)
    have elsewhere := goto_creating before (c := .idle) id t' args'
    exact elsewhere.trans ((at_.creating t' args').trans (by simp))
  deleting t' argsList := by
    have before := at_.not_holds (t := t) (by simp) (by simp)
    have elsewhere := goto_deleting before (c := .idle) id t' argsList
    exact elsewhere.trans ((at_.deleting t' argsList).trans (by simp))

theorem doom (at_ : s.At d (.live 0)) :
    (({ s with
      deviceCounts := s.deviceCounts.erase d
      deviceTable := s.deviceTable.mapValues
        (fun entry => if entry = some d then none else entry) }.goto t
      (.deleting d argsList)).record (.unmade d)).At d (.doomed t argsList) where
  born := at_.born.trans (by simp)
  counted := by simp [Factory.goto, Factory.record, OrdMap.find?_erase]
  balance := by
    have balance := at_.balance
    simp at balance ⊢
    omega
  given := by
    have balance := at_.balance
    simp at balance ⊢
    omega
  deletions := by simpa using at_.deletions
  listed args found := by
    simp only [Factory.goto, Factory.record, OrdMap.find?_mapValues, Option.map_eq_some_iff] at found
    obtain ⟨entry, _, kept⟩ := found
    split at kept
    · cases kept
    · rename_i other
      exact absurd kept other
  creating t' args' := by
    have elsewhere := at_.creating t' args'
    by_cases same : t' = t
    · simp [Factory.goto, Factory.record, same]
    · simpa [Factory.goto, Factory.record, same] using elsewhere
  deleting t' argsList' := by
    by_cases same : t' = t
    · subst same
      simp [Factory.goto, Factory.record]
    · have elsewhere := at_.deleting t' argsList'
      simp only [reduceCtorEq, iff_false] at elsewhere
      simp [Factory.goto, Factory.record, same, elsewhere, Ne.symm same]

theorem delete (at_ : s.At d (.doomed t argsList)) :
    ((s.goto t (.deleted argsList)).record (.deleted d)).At d .dead where
  born := at_.born.trans (by simp)
  counted := at_.counted
  balance := by simpa using at_.balance
  given := by simpa using at_.given
  deletions := by
    have once := at_.deletions
    simp at once ⊢
    omega
  listed := at_.listed
  creating t' args' := by
    have elsewhere := at_.creating t' args'
    by_cases same : t' = t
    · simp [Factory.goto, Factory.record, same]
    · simpa [Factory.goto, Factory.record, same] using elsewhere
  deleting t' argsList' := by
    have elsewhere := at_.deleting t' argsList'
    by_cases same : t' = t
    · simp [Factory.goto, Factory.record, same]
    · simpa [Factory.goto, Factory.record, same, Ne.symm same] using elsewhere

end At

theorem Effect.life {life : Life} (effect : Effect makeFunctions s a s') (at_ : s.At d life) :
    s'.At d life ∨ ∃ life', Life.Step life life' ∧ s'.At d life' := by
  cases effect with
  | throws t e light => exact .inl (at_.apart (.ends (light.not_holds d) id))
  | waits t inputArgs free =>
    apply Or.inl
    apply at_.apart
    apply Apart.goto
    · simp [free, Call.Holds]
    · exact id
  | launches t inputArgs results driver here absent selected =>
    apply Or.inl
    apply at_.apart
    apply Apart.goto
    · simp [here, Call.Holds]
    · exact id
  | fails t args driver hybrid e here =>
    apply Or.inl
    apply at_.apart
    apply Apart.goto
    · simp [here, Call.Holds]
    · exact id
  | cleans t argsList here =>
    apply Or.inl
    apply at_.apart
    apply Apart.trans (.eraseAll argsList)
    apply Apart.goto
    · simp [here, Call.Holds]
    · exact id
  | finds t args d' light found =>
    by_cases this : d = d'
    · subst this
      have live := at_.listed args found
      cases life with
      | live others => exact .inr ⟨_, .find others, at_.find⟩
      | unborn | pending | doomed | dead => cases live
    · apply Or.inl
      apply at_.apart
      apply Apart.trans (.retain this)
      exact .ends (light.not_holds d) (Ne.symm this)
  | creates t args driver hybrid here =>
    by_cases this : d = s.devices.length
    · subst this
      cases life with
      | unborn => exact .inr ⟨_, .create t args, at_.create⟩
      | live | pending | doomed | dead => exact absurd (at_.born.mpr (by simp)) (lt_irrefl _)
    · apply Or.inl
      apply at_.apart
      apply Apart.trans (.create args this)
      apply Apart.goto
      · simp [here, Call.Holds]
      · exact Ne.symm this
  | stores t args d' here =>
    by_cases this : d = d'
    · subst this
      have pending := (at_.creating t args).mp here
      subst pending
      exact .inr ⟨_, .store t args, at_.store⟩
    · apply Or.inl
      apply at_.apart
      apply Apart.trans (.insert args this)
      apply Apart.trans (.retain this)
      apply Apart.ends
      · simp [here, Call.Holds, Factory.retain, Ne.symm this]
      · exact Ne.symm this
  | releases t d' count free counted more =>
    by_cases this : d = d'
    · subst this
      rw [at_.counted] at counted
      cases life with
      | live others =>
        cases counted
        cases others with
        | zero => exact absurd rfl more
        | succ others => exact .inr ⟨_, .release others, at_.release⟩
      | unborn | pending | doomed | dead => cases counted
    · apply Or.inl
      apply at_.apart
      apply Apart.trans (.tables ((OrdMap.find?_insert _ _ _ _).trans (if_neg this))
        fun _ found => found)
      apply Apart.ends
      · simp [free, Call.Holds]
      · exact Ne.symm this
  | dooms t d' free counted =>
    by_cases this : d = d'
    · subst this
      rw [at_.counted] at counted
      cases life with
      | live others =>
        cases counted
        exact .inr ⟨_, .doom t _, at_.doom⟩
      | unborn | pending | doomed | dead => cases counted
    · apply Or.inl
      apply at_.apart
      apply Apart.trans (.nullify this)
      apply Apart.trans (.goto _ _) (.record _)
      · simp [free, Call.Holds]
      · exact Ne.symm this
      · exact Ne.symm this
  | deletes t d' argsList here =>
    by_cases this : d = d'
    · subst this
      have doomed := (at_.deleting t argsList).mp here
      subst doomed
      exact .inr ⟨_, .delete t argsList, at_.delete⟩
    · apply Or.inl
      apply at_.apart
      apply Apart.trans (.goto _ _) (.record _)
      · simp [here, Call.Holds, Ne.symm this]
      · exact id
      · exact Ne.symm this

theorem Living.step (living : s.Living) (step : Step makeFunctions s a s') : s'.Living := by
  intro d
  obtain ⟨life, at_⟩ := living d
  cases step.effect.life at_ with
  | inl same => exact ⟨life, same⟩
  | inr moved =>
    obtain ⟨life', _, after⟩ := moved
    exact ⟨life', after⟩

theorem Living.init : init.Living := by
  intro d
  refine ⟨.unborn, ?_⟩
  constructor <;> simp [Factory.init, made, unmade, Factory.deletions]

def Doomed (s : Factory) (d : Device) : Prop :=
  0 < s.deletions d ∨ ∃ t argsList, s.calls t = .deleting d argsList

theorem At.doomed_iff {life : Life} (at_ : s.At d life) :
    s.Doomed d ↔ life.Given ∧ life.count = none := by
  simp only [Doomed, at_.deletions, at_.deleting]
  cases life with
  | unborn | pending | live | doomed | dead => simp

/-- The calls that returned a device and the calls that gave it back account for its
    count, its table entries and its deletion. -/
structure Contract (s : Factory) (d : Device) : Prop where
  counts : (s.deviceCounts.find? d).getD 0 + s.unmade d = s.made d
  listed : ∀ args, s.deviceTable.find? args = some (some d) →
    ∃ count, s.deviceCounts.find? d = some count ∧ 1 ≤ count
  doomed : s.Doomed d ↔ 0 < s.made d ∧ s.unmade d = s.made d
  deletedOnce : s.deletions d ≤ 1
  deletingOnce : ∀ t argsList, s.calls t = .deleting d argsList → s.deletions d = 0 ∧
    ∀ t' argsList', s.calls t' = .deleting d argsList' → t' = t

theorem At.contract {life : Life} (at_ : s.At d life) : s.Contract d where
  counts := by
    rw [at_.counted, at_.balance, Nat.add_comm]
  listed args found := by
    have live := at_.listed args found
    cases life with
    | live others => exact ⟨others + 1, at_.counted, Nat.le_add_left 1 others⟩
    | unborn | pending | doomed | dead => cases live
  doomed := by
    rw [at_.doomed_iff, ← at_.given, at_.balance]
    cases life with
    | unborn | pending | live | doomed | dead => simp
  deletedOnce := by
    rw [at_.deletions]
    cases life with
    | unborn | pending | live | doomed | dead => simp
  deletingOnce t argsList deleting := by
    have doomed := (at_.deleting t argsList).mp deleting
    subst doomed
    refine ⟨at_.deletions, ?_⟩
    intro t' argsList' also
    cases (at_.deleting t' argsList').mp also
    rfl

theorem Effect.returned {t : Thread} {args : Kwargs} (effect : Effect makeFunctions s a s')
    (living : s.Living) (ended : s'.events = s.events ++ [.returned t args d]) :
    (∃ others, s'.At d (.live others)) ∧
      ((∃ others, s.At d (.live others)) ∨ ∃ t', s.At d (.pending t' args)) := by
  obtain ⟨life, at_⟩ := living d
  cases effect with
  | finds t' args' d' light found =>
    simp only [ends, goto, record, retain, List.append_cancel_left_eq, List.cons.injEq,
      Event.returned.injEq] at ended
    obtain ⟨⟨rfl, rfl, rfl⟩, _⟩ := ended
    have live := at_.listed args' found
    cases life with
    | live others => exact ⟨⟨_, at_.find⟩, .inl ⟨others, at_⟩⟩
    | unborn | pending | doomed | dead => cases live
  | stores t' args' d' here =>
    simp only [ends, goto, record, retain, List.append_cancel_left_eq, List.cons.injEq,
      Event.returned.injEq] at ended
    obtain ⟨⟨rfl, rfl, rfl⟩, _⟩ := ended
    have pending := (at_.creating t' args').mp here
    subst pending
    exact ⟨⟨_, at_.store⟩, .inr ⟨t', at_⟩⟩
  | throws | releases | dooms | deletes => simp [ends, goto, record] at ended
  | waits | launches | creates | fails | cleans => simp [goto] at ended

end Factory

open Factory in
/-- However `make` and `unmake` interleave, the count of a device is the calls that returned it less
    those that gave it back; it is deleted when that comes to zero and only then, once; the table
    lists only counted devices; and `make` returns no device that is deleted or being deleted. -/
theorem devices_counted {makeFunctions : List Bytes} {s : Factory}
    (run : Runs (Step makeFunctions) Proper init s) :
    (∀ d, s.Contract d) ∧
      ∀ a s', Proper s a → Step makeFunctions s a s' →
        ∀ t args d, s'.events = s.events ++ [.returned t args d] →
          ¬ s.Doomed d ∧ ¬ s'.Doomed d := by
  have living : s.Living := run.keeps (fun _ _ _ living _ step => living.step step) Living.init
  constructor
  · intro d
    obtain ⟨life, at_⟩ := living d
    exact at_.contract
  · intro a s' _ step t args d ended
    obtain ⟨⟨others, after⟩, before⟩ := step.effect.returned living ended
    constructor
    · rcases before with ⟨others', at_⟩ | ⟨t', at_⟩
      · simp [at_.doomed_iff]
      · simp [at_.doomed_iff]
    · simp [after.doomed_iff]

namespace Factory

/-- What the enumeration of the example finds. -/
def found : Kwargs := OrdMap.empty.insert (ascii "driver") (ascii "lime")

theorem devices_counted_once : ∃ s, s.made 0 = 1 ∧ s.deletions 0 = 1 ∧
    (∀ d, s.Contract d) ∧
    ∀ a s', Proper s a → Step [ascii "lime"] s a s' →
      ∀ t args d, s'.events = s.events ++ [.returned t args d] → ¬ s.Doomed d ∧ ¬ s'.Doomed d := by
  have run : Runs (Step [ascii "lime"]) Proper init init := .refl
  have cleaned := run
    |>.tail (.make 0 .empty rfl)
    |>.tail (.enumerate 0 .empty [found] rfl)
    |>.tail (.create 0 found (ascii "lime") found rfl)
    |>.tail (.store 0 found (.ok 0) rfl)
    |>.tail (.unmake 1 0 rfl) Nat.zero_lt_one
    |>.tail (.delete 1 0 [found] rfl)
    |>.tail (.clean 1 [found] rfl)
  exact ⟨_, rfl, rfl, devices_counted cleaned⟩

end Factory

end Soapy.SDR
