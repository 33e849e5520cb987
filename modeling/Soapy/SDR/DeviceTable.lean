import Soapy.SDR.DeviceLife

/-! # One device for the discovered args

`Slot` is the state machine of one key of the device table: nothing, a factory at
work, a device, a device that is going away. As long as no factory is started for a
key while another one is at work for it, the factory keeps every key in one of these
states, so at most one device exists for the same discovered args.
-/

namespace Soapy.SDR

open Lib
open Soapy.Remote (Kwargs Exn)

def Call.Creates (args : Kwargs) : Call → Prop
  | .creating args' _ _ | .created args' _ => args' = args
  | .idle | .enumerating _ | .deleting .. | .deleted _ => False

def Call.Cleans (args : Kwargs) : Call → Prop
  | .deleting _ argsList | .deleted argsList => args ∈ argsList
  | .idle | .enumerating _ | .creating .. | .created .. => False

theorem Call.Light.not_cleans {c : Call} (light : c.Light) (args : Kwargs) : ¬ c.Cleans args := by
  cases c with
  | idle | enumerating | creating | created => exact id
  | deleting | deleted => exact light.elim

inductive Slot where
  | free
  | making (t : Thread)
  | holding (device : Device)
  | closing (t : Thread)

namespace Slot

def entry : Slot → Option (Option Device)
  | free | making _ => none
  | holding device => some (some device)
  | closing _ => some none

inductive Step : Slot → Slot → Prop
  | launch (t : Thread) : Step free (making t)
  | fail (t : Thread) : Step (making t) free
  | store (t : Thread) (device : Device) : Step (making t) (holding device)
  | doom (t : Thread) (device : Device) : Step (holding device) (closing t)
  | clean (t : Thread) : Step (closing t) free

end Slot

namespace Factory

variable {makeFunctions : List Bytes} {s s' : Factory} {a : Action} {d : Device}
  {args : Kwargs} {slot : Slot}

def discoveredArgs (s : Factory) (d : Device) : Option Kwargs := s.devices[d]?

theorem discoveredArgs_create (args' : Kwargs) (known : s.discoveredArgs d = some args) :
    ({ s with devices := s.devices ++ [args'] } : Factory).discoveredArgs d = some args :=
  (List.getElem?_append_left (List.getElem?_eq_some_iff.mp known).1).trans known

theorem discoveredArgs_old {d : Nat} {args' : Kwargs}
    (known : ({ s with devices := s.devices ++ [args'] } : Factory).discoveredArgs d = some args)
    (old : d ≠ s.devices.length) : s.discoveredArgs d = some args := by
  have bound := (List.getElem?_eq_some_iff.mp known).1
  rw [List.length_append, List.length_singleton] at bound
  have below : d < s.devices.length := by omega
  exact (List.getElem?_append_left below).symm.trans known

structure Owned (s : Factory) : Prop where
  listed : ∀ args d, s.deviceTable.find? args = some (some d) → s.discoveredArgs d = some args
  created : ∀ t args d, s.calls t = .created args (.ok d) → s.discoveredArgs d = some args
  returned : ∀ t args d, .returned t args d ∈ s.events → s.discoveredArgs d = some args

theorem Owned.init : init.Owned := by
  constructor <;> simp [Factory.init]

theorem goto_calls (s : Factory) (t : Thread) (c : Call) (t' : Thread) :
    (s.goto t c).calls t' = if t' = t then c else s.calls t' := by
  by_cases same : t' = t
  · subst same
    simp [goto]
  · simp [goto, same]

namespace Owned

theorem goto (owned : s.Owned) (t : Thread) (c : Call)
    (created : ∀ args d, c = .created args (.ok d) → s.discoveredArgs d = some args) :
    (s.goto t c).Owned where
  listed := owned.listed
  created t' args d here := by
    rw [goto_calls] at here
    split at here
    · exact created args d here
    · exact owned.created t' args d here
  returned := owned.returned

theorem record (owned : s.Owned) (e : Event)
    (returned : ∀ t args d, e = .returned t args d → s.discoveredArgs d = some args) :
    (s.record e).Owned where
  listed := owned.listed
  created := owned.created
  returned t args d member := by
    cases List.mem_append.mp member with
    | inl old => exact owned.returned t args d old
    | inr last => exact returned t args d (List.mem_singleton.mp last).symm

theorem ends (owned : s.Owned) (t : Thread) (e : Event)
    (returned : ∀ t args d, e = .returned t args d → s.discoveredArgs d = some args) :
    (s.ends t e).Owned :=
  (owned.goto t .idle (by simp)).record e returned

theorem tables (owned : s.Owned) {deviceTable : OrdMap Kwargs (Option Device)}
    {deviceCounts : OrdMap Device Nat}
    (listed : ∀ args d, deviceTable.find? args = some (some d) → s.discoveredArgs d = some args) :
    ({ s with deviceTable := deviceTable, deviceCounts := deviceCounts }).Owned where
  listed := listed
  created := owned.created
  returned := owned.returned

theorem create (owned : s.Owned) (args' : Kwargs) :
    ({ s with devices := s.devices ++ [args'] }).Owned where
  listed args d found := discoveredArgs_create args' (owned.listed args d found)
  created t args d here := discoveredArgs_create args' (owned.created t args d here)
  returned t args d member := discoveredArgs_create args' (owned.returned t args d member)

theorem effect (owned : s.Owned) (effect : Effect makeFunctions s a s') : s'.Owned := by
  cases effect with
  | throws t e light => exact owned.ends t _ (by simp)
  | finds t args d light found =>
    apply (owned.tables owned.listed).ends
    intro _ _ _ same
    cases same
    exact owned.listed args d found
  | waits t inputArgs free => exact owned.goto t _ (by simp)
  | launches t inputArgs results driver here absent selected => exact owned.goto t _ (by simp)
  | creates t args driver hybrid here =>
    apply (owned.create args).goto
    intro _ _ same
    cases same
    simp [discoveredArgs]
  | fails t args driver hybrid e here => exact owned.goto t _ (by simp)
  | stores t args d here =>
    have known := owned.created t args d here
    apply (owned.tables _).ends
    · intro _ _ _ same
      cases same
      exact known
    · intro args' d' found
      rw [OrdMap.find?_insert] at found
      split at found
      · rename_i same
        cases found
        rw [same]
        exact known
      · exact owned.listed args' d' found
  | releases t d count free counted more => exact (owned.tables owned.listed).ends t _ (by simp)
  | dooms t d free counted =>
    apply (Owned.goto (owned.tables _) t _ (by simp)).record _ (by simp)
    intro args d' found
    rw [OrdMap.find?_mapValues, Option.map_eq_some_iff] at found
    obtain ⟨entry, present, kept⟩ := found
    split at kept
    · cases kept
    · exact owned.listed args d' (present.trans (congrArg some kept))
  | deletes t d argsList here => exact (owned.goto t _ (by simp)).record _ (by simp)
  | cleans t argsList here =>
    apply Owned.goto (owned.tables _) t _ (by simp)
    intro args d found
    rw [OrdMap.find?_eraseAll] at found
    split at found
    · cases found
    · exact owned.listed args d found

end Owned

/-- How the factory looks for a key of the table in this state. -/
structure Keeps (s : Factory) (args : Kwargs) (slot : Slot) : Prop where
  entry : s.deviceTable.find? args = slot.entry
  creates : ∀ t, (s.calls t).Creates args ↔ slot = .making t
  cleans : ∀ t, (s.calls t).Cleans args ↔ slot = .closing t
  live : ∀ d, s.discoveredArgs d = some args → s.Live d → slot = .holding d
  deletes : ∀ t d argsList, s.calls t = .deleting d argsList → s.discoveredArgs d = some args →
    args ∈ argsList

namespace Keeps

variable {t : Thread} {c : Call}

theorem goto (keeps : s.Keeps args slot) (creates : c.Creates args ↔ (s.calls t).Creates args)
    (cleans : c.Cleans args ↔ (s.calls t).Cleans args)
    (deletes : ∀ d argsList, c = .deleting d argsList → s.discoveredArgs d = some args →
      args ∈ argsList) : (s.goto t c).Keeps args slot where
  entry := keeps.entry
  creates t' := by
    rw [goto_calls]
    split
    · rename_i same
      rw [creates, same]
      exact keeps.creates t
    · exact keeps.creates t'
  cleans t' := by
    rw [goto_calls]
    split
    · rename_i same
      rw [cleans, same]
      exact keeps.cleans t
    · exact keeps.cleans t'
  live := keeps.live
  deletes t' d argsList here own := by
    rw [goto_calls] at here
    split at here
    · exact deletes d argsList here own
    · exact keeps.deletes t' d argsList here own

theorem record (keeps : s.Keeps args slot) {e : Event}
    (returned : ∀ t args' d, e = .returned t args' d → s.discoveredArgs d = some args →
      slot = .holding d) : (s.record e).Keeps args slot where
  entry := keeps.entry
  creates := keeps.creates
  cleans := keeps.cleans
  live d own alive := by
    cases e with
    | returned t args' d' =>
      by_cases this : d' = d
      · subst this
        exact returned t args' d' rfl own
      · exact keeps.live d own (by simpa [Live, this] using alive)
    | threw => exact keeps.live d own (by simpa [Live] using alive)
    | unmade d' =>
      apply keeps.live d own
      simp only [Live, made_record, unmade_record] at alive ⊢
      omega
    | deleted => exact keeps.live d own (by simpa [Live] using alive)
  deletes := keeps.deletes

theorem tables (keeps : s.Keeps args slot) {deviceTable : OrdMap Kwargs (Option Device)}
    {deviceCounts : OrdMap Device Nat} (entry : deviceTable.find? args = s.deviceTable.find? args) :
    ({ s with deviceTable := deviceTable, deviceCounts := deviceCounts }).Keeps args slot where
  entry := entry.trans keeps.entry
  creates := keeps.creates
  cleans := keeps.cleans
  live := keeps.live
  deletes := keeps.deletes

theorem create (keeps : s.Keeps args slot) (args' : Kwargs) (unborn : ¬ s.Live s.devices.length)
    (noDelete : ∀ t argsList, s.calls t ≠ .deleting s.devices.length argsList) :
    ({ s with devices := s.devices ++ [args'] }).Keeps args slot where
  entry := keeps.entry
  creates := keeps.creates
  cleans := keeps.cleans
  live d own alive := by
    have old : d ≠ s.devices.length := by
      rintro rfl
      exact unborn alive
    exact keeps.live d (discoveredArgs_old own old) alive
  deletes t d argsList here own := by
    have old : d ≠ s.devices.length := by
      rintro rfl
      exact noDelete t argsList here
    exact keeps.deletes t d argsList here (discoveredArgs_old own old)

theorem launch (keeps : s.Keeps args .free) (creates : c.Creates args) (cleans : ¬ c.Cleans args)
    (quiet : ∀ d argsList, c ≠ .deleting d argsList) : (s.goto t c).Keeps args (.making t) where
  entry := keeps.entry
  creates t' := by
    rw [goto_calls]
    split
    · rename_i same
      simp [creates, same]
    · rename_i other
      have nobody := keeps.creates t'
      simp only [reduceCtorEq, iff_false] at nobody
      simp [nobody, Ne.symm other]
  cleans t' := by
    have nobody := keeps.cleans t'
    rw [goto_calls]
    split
    · simp [cleans]
    · simpa using nobody
  live d own alive := by cases keeps.live d own alive
  deletes t' d argsList here own := by
    rw [goto_calls] at here
    split at here
    · exact absurd here (quiet d argsList)
    · exact keeps.deletes t' d argsList here own

theorem fail (keeps : s.Keeps args (.making t)) (creates : ¬ c.Creates args)
    (cleans : ¬ c.Cleans args) (quiet : ∀ d argsList, c ≠ .deleting d argsList) :
    (s.goto t c).Keeps args .free where
  entry := keeps.entry
  creates t' := by
    have only := keeps.creates t'
    rw [goto_calls]
    split
    · simp [creates]
    · rename_i other
      simpa [Ne.symm other] using only
  cleans t' := by
    have nobody := keeps.cleans t'
    rw [goto_calls]
    split
    · simp [cleans]
    · simpa using nobody
  live d own alive := by cases keeps.live d own alive
  deletes t' d argsList here own := by
    rw [goto_calls] at here
    split at here
    · exact absurd here (quiet d argsList)
    · exact keeps.deletes t' d argsList here own

theorem store (keeps : s.Keeps args (.making t)) (d : Device) :
    (({ s with deviceTable := s.deviceTable.insert args (some d) }.retain d).ends t
      (.returned t args d)).Keeps args (.holding d) where
  entry := (OrdMap.find?_insert _ _ _ _).trans (if_pos rfl)
  creates t' := by
    have only := keeps.creates t'
    simp only [ends, Factory.record, retain, goto_calls]
    split
    · simp [Call.Creates]
    · rename_i other
      simpa [Ne.symm other] using only
  cleans t' := by
    have nobody := keeps.cleans t'
    simp only [ends, Factory.record, retain, goto_calls]
    split
    · simp [Call.Cleans]
    · simpa using nobody
  live d' own alive := by
    by_cases this : d = d'
    · rw [this]
    · have before : s.Live d' := by simpa [Live, ends, retain, this] using alive
      cases keeps.live d' own before
  deletes t' d' argsList here own := by
    simp only [ends, Factory.record, retain, goto_calls] at here
    split at here
    · cases here
    · exact keeps.deletes t' d' argsList here own

theorem doom (keeps : s.Keeps args (.holding d)) (last : s.made d = s.unmade d + 1) :
    (({ s with
      deviceCounts := s.deviceCounts.erase d
      deviceTable := s.deviceTable.mapValues
        (fun entry => if entry = some d then none else entry) }.goto t
      (.deleting d (s.argsOf d))).record (.unmade d)).Keeps args (.closing t) where
  entry := by
    simp [Factory.goto, Factory.record, OrdMap.find?_mapValues, keeps.entry, Slot.entry]
  creates t' := by
    have nobody := keeps.creates t'
    simp only [Factory.record, goto_calls]
    split
    · simp [Call.Creates]
    · simpa using nobody
  cleans t' := by
    have nobody := keeps.cleans t'
    have listed : args ∈ s.argsOf d := by
      simp [argsOf, OrdMap.mem_keysWhere, keeps.entry, Slot.entry]
    simp only [Factory.record, goto_calls]
    split
    · rename_i same
      simp [Call.Cleans, listed, same]
    · rename_i other
      simpa [Ne.symm other] using nobody
  live d' own alive := by
    by_cases this : d = d'
    · subst this
      simp only [Live, made_record, made_goto, made_mk, unmade_record, unmade_goto, unmade_mk,
        if_true] at alive
      omega
    · have before : s.Live d' := by simpa [Live, this] using alive
      cases keeps.live d' own before
      exact absurd rfl this
  deletes t' d' argsList here own := by
    simp only [Factory.record, goto_calls] at here
    split at here
    · cases here
      simp [argsOf, OrdMap.mem_keysWhere, keeps.entry, Slot.entry]
    · exact keeps.deletes t' d' argsList here own

theorem clean (keeps : s.Keeps args (.closing t)) {argsList : List Kwargs}
    (here : args ∈ argsList) :
    ({ s with deviceTable := s.deviceTable.eraseAll argsList }.goto t .idle).Keeps args .free where
  entry := by simp [Factory.goto, OrdMap.find?_eraseAll, here, Slot.entry]
  creates t' := by
    have nobody := keeps.creates t'
    rw [goto_calls]
    split
    · simp [Call.Creates]
    · simpa using nobody
  cleans t' := by
    have only := keeps.cleans t'
    rw [goto_calls]
    split
    · simp [Call.Cleans]
    · rename_i other
      simpa [Ne.symm other] using only
  live d own alive := by cases keeps.live d own alive
  deletes t' d argsList' deleting own := by
    rw [goto_calls] at deleting
    split at deleting
    · cases deleting
    · exact keeps.deletes t' d argsList' deleting own

end Keeps

def Launches (makeFunctions : List Bytes) (s : Factory) (a : Action) (args : Kwargs) : Prop :=
  ∃ t results inputArgs driver, a = .enumerate t results ∧ s.calls t = .enumerating inputArgs ∧
    results.headD .empty = args ∧ s.deviceTable.find? args = none ∧
    selectMake makeFunctions (hybridArgs args inputArgs) = .ok driver

def Sole (makeFunctions : List Bytes) (s : Factory) (a : Action) : Prop :=
  Proper s a ∧ ∀ args, args ≠ .empty → Launches makeFunctions s a args →
    ∀ t, ¬ (s.calls t).Creates args

/-- The key stays as it is or takes one step. -/
def Moves (s : Factory) (args : Kwargs) (slot : Slot) : Prop :=
  s.Keeps args slot ∨ ∃ slot', Slot.Step slot slot' ∧ s.Keeps args slot'

theorem Keeps.turn {t : Thread} {c : Call} (keeps : s.Keeps args slot) (light : (s.calls t).Light)
    (creates : ¬ c.Creates args) (cleans : ¬ c.Cleans args)
    (quiet : ∀ d argsList, c ≠ .deleting d argsList) : (s.goto t c).Moves args slot := by
  by_cases creating : (s.calls t).Creates args
  · have here := (keeps.creates t).mp creating
    subst here
    exact .inr ⟨.free, .fail t, keeps.fail creates cleans quiet⟩
  · apply Or.inl
    apply keeps.goto
    · exact iff_of_false creates creating
    · exact iff_of_false cleans (light.not_cleans args)
    · exact fun d argsList same => absurd same (quiet d argsList)

theorem Moves.record {e : Event} (moves : s.Moves args slot)
    (quiet : ∀ t args' d, e ≠ .returned t args' d) : (s.record e).Moves args slot := by
  cases moves with
  | inl keeps => exact .inl (keeps.record fun t args' d same => absurd same (quiet t args' d))
  | inr moved =>
    obtain ⟨slot', taken, keeps⟩ := moved
    exact .inr ⟨slot', taken, keeps.record fun t args' d same => absurd same (quiet t args' d)⟩

theorem Keeps.find (keeps : s.Keeps args slot) (found : s.deviceTable.find? args = some (some d)) :
    slot = .holding d := by
  have entry := keeps.entry
  rw [found] at entry
  cases slot with
  | holding d' =>
    cases entry
    rfl
  | free | making | closing => cases entry

theorem Keeps.effect (keeps : s.Keeps args slot) (effect : Effect makeFunctions s a s')
    (sole : Sole makeFunctions s a) (nonempty : args ≠ .empty) (living : s.Living)
    (owned : s.Owned) : s'.Moves args slot := by
  cases effect with
  | throws t e light => exact (keeps.turn light (c := .idle) id id (by simp)).record (by simp)
  | waits t inputArgs free =>
    apply keeps.turn
    · simp [free, Call.Light]
    · exact id
    · exact id
    · simp
  | finds t args' d light found =>
    by_cases creating : (s.calls t).Creates args
    · have here := (keeps.creates t).mp creating
      subst here
      have turned : ((s.retain d).goto t .idle).Keeps args .free :=
        (keeps.tables rfl).fail id id (by simp)
      refine .inr ⟨.free, .fail t, turned.record ?_⟩
      intro t' args'' d' same own
      cases same
      have known := owned.listed args' d found
      cases known.symm.trans own
      cases keeps.find found
    · have turned : ((s.retain d).goto t .idle).Keeps args slot := by
        apply Keeps.goto (keeps.tables rfl)
        · exact iff_of_false id creating
        · exact iff_of_false id (light.not_cleans args)
        · simp
      refine .inl (turned.record ?_)
      intro t' args'' d' same own
      cases same
      have known := owned.listed args' d found
      cases known.symm.trans own
      exact keeps.find found
  | launches t inputArgs results driver here absent selected =>
    by_cases this : results.headD .empty = args
    · rw [this] at absent selected ⊢
      have missing := absent nonempty
      have nobody := sole.2 args nonempty
        ⟨t, results, inputArgs, driver, rfl, here, this, missing, selected⟩
      have entry := keeps.entry
      rw [missing] at entry
      cases slot with
      | free => exact .inr ⟨_, .launch t, keeps.launch rfl id (by simp)⟩
      | making t' => exact absurd ((keeps.creates t').mpr rfl) (nobody t')
      | holding | closing => cases entry
    · apply keeps.turn
      · simp [here, Call.Light]
      · exact this
      · exact id
      · simp
  | creates t args' driver hybrid here =>
    obtain ⟨life, at_⟩ := living s.devices.length
    have unborn : life = .unborn := by
      by_contra born
      exact lt_irrefl _ (at_.born.mpr born)
    subst unborn
    apply Or.inl
    apply Keeps.goto
    · apply keeps.create args'
      · simp [Live, at_.balance]
      · intro t' argsList deleting
        cases (at_.deleting t' argsList).mp deleting
    · simp [here, Call.Creates]
    · simp [here, Call.Cleans]
    · simp
  | fails t args' driver hybrid e here =>
    apply Or.inl
    apply keeps.goto
    · simp [here, Call.Creates]
    · simp [here, Call.Cleans]
    · simp
  | stores t args' d here =>
    by_cases this : args' = args
    · subst this
      have making := (keeps.creates t).mp (by simp [here, Call.Creates])
      subst making
      exact .inr ⟨_, .store t d, keeps.store d⟩
    · apply Or.inl
      apply Keeps.record
      · apply Keeps.goto
        · apply Keeps.tables keeps
          rw [OrdMap.find?_insert, if_neg (Ne.symm this)]
        · simp [retain, here, Call.Creates, this]
        · simp [retain, here, Call.Cleans]
        · simp
      · intro t' args'' d' same own
        cases same
        have known := owned.created t args' d here
        cases known.symm.trans own
        exact absurd rfl this
  | releases t d count free counted more =>
    apply Or.inl
    apply Keeps.record
    · apply Keeps.goto (keeps.tables rfl)
      · simp [free, Call.Creates]
      · simp [free, Call.Cleans]
      · simp
    · simp
  | dooms t d free counted =>
    by_cases this : slot = .holding d
    · subst this
      refine .inr ⟨_, .doom t d, keeps.doom ?_⟩
      obtain ⟨life, at_⟩ := living d
      have balance := at_.balance
      rw [← at_.counted, counted] at balance
      exact balance
    · have other : s.deviceTable.find? args ≠ some (some d) := fun found => this (keeps.find found)
      apply Or.inl
      apply Keeps.record
      · apply Keeps.goto
        · apply Keeps.tables keeps
          rw [OrdMap.find?_mapValues]
          cases entry : s.deviceTable.find? args with
          | none => rfl
          | some value =>
            rw [entry] at other
            rw [Option.map_some, if_neg (fun same => other (congrArg some same))]
        · simp [free, Call.Creates]
        · simp [free, Call.Cleans, argsOf, OrdMap.mem_keysWhere, other]
        · intro d' argsList same own
          cases same
          obtain ⟨life, at_⟩ := living d
          have alive : s.Live d := by
            rw [at_.live_iff, ← at_.counted, counted]
            rfl
          exact absurd (keeps.live d own alive) this
      · simp
  | deletes t d argsList here =>
    apply Or.inl
    apply Keeps.record
    · apply keeps.goto
      · simp [here, Call.Creates]
      · simp [here, Call.Cleans]
      · simp
    · simp
  | cleans t argsList here =>
    by_cases listed : args ∈ argsList
    · have closing := (keeps.cleans t).mp (by simpa [here, Call.Cleans] using listed)
      subst closing
      exact .inr ⟨_, .clean t, keeps.clean listed⟩
    · apply Or.inl
      apply Keeps.goto
      · apply Keeps.tables keeps
        rw [OrdMap.find?_eraseAll, if_neg listed]
      · simp [here, Call.Creates]
      · simp [here, Call.Cleans, listed]
      · simp

/-- The tables and the threads in a run whose factories are not started twice. -/
structure Shares (s : Factory) : Prop where
  living : s.Living
  owned : s.Owned
  keeps : ∀ args, args ≠ .empty → ∃ slot, s.Keeps args slot

namespace Shares

theorem init : init.Shares where
  living := .init
  owned := .init
  keeps args _ := by
    refine ⟨.free, ?_⟩
    constructor <;> simp [Factory.init, Slot.entry, Call.Creates, Call.Cleans, discoveredArgs]

theorem step (shares : s.Shares) (sole : Sole makeFunctions s a) (step : Step makeFunctions s a s') :
    s'.Shares where
  living := shares.living.step step
  owned := shares.owned.effect step.effect
  keeps args nonempty := by
    obtain ⟨slot, keeps⟩ := shares.keeps args nonempty
    cases keeps.effect step.effect sole nonempty shares.living shares.owned with
    | inl same => exact ⟨slot, same⟩
    | inr moved =>
      obtain ⟨slot', _, after⟩ := moved
      exact ⟨slot', after⟩

theorem present (shares : s.Shares) (keeps : s.Keeps args slot)
    (own : s.discoveredArgs d = some args) (here : s.deletions d = 0) :
    (∃ t, slot = .making t ∧ s.calls t = .created args (.ok d)) ∨ slot = .holding d ∨
      ∃ t argsList, slot = .closing t ∧ s.calls t = .deleting d argsList := by
  obtain ⟨life, at_⟩ := shares.living d
  cases life with
  | unborn =>
    have known := (List.getElem?_eq_some_iff.mp own).1
    exact absurd rfl (at_.born.mp known)
  | pending t args' =>
    have created := (at_.creating t args').mpr rfl
    cases own.symm.trans (shares.owned.created t args' d created)
    exact .inl ⟨t, (keeps.creates t).mp (by simp [created, Call.Creates]), created⟩
  | live others => exact .inr (.inl (keeps.live d own (at_.live_iff.mpr rfl)))
  | doomed t argsList =>
    have deleting := (at_.deleting t argsList).mpr rfl
    have listed := keeps.deletes t d argsList deleting own
    exact .inr (.inr ⟨t, argsList,
      (keeps.cleans t).mp (by simpa [deleting, Call.Cleans] using listed), deleting⟩)
  | dead =>
    have once := at_.deletions
    rw [here] at once
    cases once

end Shares

structure OneDevice (s : Factory) : Prop where
  unique : ∀ args d d', args ≠ .empty → s.discoveredArgs d = some args →
    s.discoveredArgs d' = some args → s.deletions d = 0 → s.deletions d' = 0 → d = d'
  /-- At most one factory is at work, -/
  oneFactory : ∀ args t t', args ≠ .empty → (s.calls t).Creates args → (s.calls t').Creates args →
    t = t'
  calledOnce : ∀ args t driver hybrid d, args ≠ .empty → s.calls t = .creating args driver hybrid →
    s.discoveredArgs d = some args → s.deletions d ≠ 0
  returned : ∀ args t t' d d', args ≠ .empty → .returned t args d ∈ s.events →
    .returned t' args d' ∈ s.events → s.deletions d = 0 → s.deletions d' = 0 → d = d'
  settled : (∀ t, s.calls t = .idle) → ∀ args, args ≠ .empty →
    s.deviceTable.find? args ≠ some none ∧
    ∀ d, s.deviceTable.find? args = some (some d) ↔ s.discoveredArgs d = some args ∧ s.Live d

theorem Shares.oneDevice (shares : s.Shares) : s.OneDevice := by
  have unique : ∀ args d d', args ≠ .empty → s.discoveredArgs d = some args →
      s.discoveredArgs d' = some args → s.deletions d = 0 → s.deletions d' = 0 → d = d' := by
    intro args d d' nonempty own own' here here'
    obtain ⟨slot, keeps⟩ := shares.keeps args nonempty
    rcases shares.present keeps own here with
      ⟨t, rfl, at_⟩ | rfl | ⟨t, argsList, rfl, at_⟩
    · rcases shares.present keeps own' here' with ⟨t', same, at'⟩ | same | ⟨t', _, same, at'⟩
      · cases same
        cases at_.symm.trans at'
        rfl
      · cases same
      · cases same
    · rcases shares.present keeps own' here' with ⟨t', same, at'⟩ | same | ⟨t', _, same, at'⟩
      · cases same
      · cases same
        rfl
      · cases same
    · rcases shares.present keeps own' here' with ⟨t', same, at'⟩ | same | ⟨t', _, same, at'⟩
      · cases same
      · cases same
      · cases same
        cases at_.symm.trans at'
        rfl
  constructor
  · exact unique
  · intro args t t' nonempty creates creates'
    obtain ⟨slot, keeps⟩ := shares.keeps args nonempty
    have here := (keeps.creates t).mp creates
    subst here
    cases (keeps.creates t').mp creates'
    rfl
  · intro args t driver hybrid d nonempty creating own here
    obtain ⟨slot, keeps⟩ := shares.keeps args nonempty
    have making := (keeps.creates t).mp (by simp [creating, Call.Creates])
    subst making
    rcases shares.present keeps own here with ⟨t', same, at'⟩ | same | ⟨t', _, same, at'⟩
    · cases same
      cases creating.symm.trans at'
    · cases same
    · cases same
  · intro args t t' d d' nonempty member member' here here'
    exact unique args d d' nonempty (shares.owned.returned t args d member)
      (shares.owned.returned t' args d' member') here here'
  · intro quiet args nonempty
    obtain ⟨slot, keeps⟩ := shares.keeps args nonempty
    constructor
    · intro null
      have entry := keeps.entry
      rw [null] at entry
      cases slot with
      | closing t =>
        have cleans := (keeps.cleans t).mpr rfl
        rw [quiet t] at cleans
        exact cleans
      | free | making | holding => cases entry
    · intro d
      constructor
      · intro found
        obtain ⟨life, at_⟩ := shares.living d
        exact ⟨shares.owned.listed args d found, at_.live_iff.mpr (at_.listed args found)⟩
      · rintro ⟨own, alive⟩
        have holding := keeps.live d own alive
        subst holding
        exact keeps.entry

end Factory

open Factory in
/-- As long as no factory is started for args for which another one is at work: at most one device
    exists for the same args, calls share it, and between the calls the table holds it. -/
theorem device_shared {makeFunctions : List Bytes} {s : Factory}
    (run : Runs (Step makeFunctions) (Sole makeFunctions) init s) : s.OneDevice :=
  (run.keeps (fun _ _ _ shares sole step => shares.step sole step) Shares.init).oneDevice

namespace Factory

theorem device_shared_twice : ∃ s : Factory, s.calls = init.calls ∧ s.made 0 = 2 ∧ s.OneDevice := by
  have run : Runs (Step [ascii "lime"]) (Sole [ascii "lime"]) init init := .refl
  have shared := run
    |>.tail (.make 0 .empty rfl) ⟨trivial, by simp [Launches]⟩
    |>.tail (.enumerate 0 .empty [found] rfl) ⟨trivial, by
      intro args _ _ t creates
      match t with
      | 0 => exact creates
      | t + 1 => exact creates⟩
    |>.tail (.create 0 found (ascii "lime") found rfl)
      ⟨trivial, by simp [Launches]⟩
    |>.tail (.store 0 found (.ok 0) rfl) ⟨trivial, by simp [Launches]⟩
    |>.tail (.make 1 found rfl) ⟨trivial, by simp [Launches]⟩
  refine ⟨_, ?_, ?_, device_shared shared⟩
  · funext t
    match t with
    | 0 => rfl
    | 1 => rfl
    | t + 2 => rfl
  · rfl

/-- Both threads have looked the device up before either has stored it. -/
theorem device_made_twice : ∃ s, Runs (Step [ascii "lime"]) Proper init s ∧
    (∀ t, s.calls t = .idle) ∧ found ≠ .empty ∧
    s.discoveredArgs 0 = some found ∧ s.Live 0 ∧ s.discoveredArgs 1 = some found ∧ s.Live 1 ∧
    .returned 0 found 0 ∈ s.events ∧ .returned 1 found 1 ∈ s.events ∧
    s.deviceTable.find? found = some (some 1) := by
  have run : Runs (Step [ascii "lime"]) Proper init init := .refl
  have storedToo := run
    |>.tail (.make 0 .empty rfl)
    |>.tail (.enumerate 0 .empty [found] rfl)
    |>.tail (.make 1 .empty rfl)
    |>.tail (.enumerate 1 .empty [found] rfl)
    |>.tail (.create 0 found (ascii "lime") found rfl)
    |>.tail (.create 1 found (ascii "lime") found rfl)
    |>.tail (.store 0 found (.ok 0) rfl)
    |>.tail (.store 1 found (.ok 1) rfl)
  refine ⟨_, storedToo, ?_, ?_, rfl, Nat.zero_lt_one, rfl, Nat.zero_lt_one, ?_, ?_, ?_⟩
  · intro t
    match t with
    | 0 => rfl
    | 1 => rfl
    | t + 2 => rfl
  · intro none
    cases congrArg OrdMap.entries none
  · exact List.mem_cons_self
  · exact List.mem_cons_of_mem _ List.mem_cons_self
  · exact (OrdMap.find?_insert _ _ _ _).trans (if_pos rfl)

end Factory

end Soapy.SDR
