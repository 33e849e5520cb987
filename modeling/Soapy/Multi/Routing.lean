import Soapy.Multi.Devices

/-! # Every call reaches the device that is meant

A channel belongs to the device that it came from when the channels were lined up, an indexed
name to the device of its index. Values that are read and set back should stay what they are.
-/

namespace Soapy.Multi

open Lib

variable {device channel localChannel : Nat}

variable {counts : List (Nat × Nat)}

variable (s : SoapyMultiSDR)

variable (method : NamedMethod)

variable {name : Bytes}

theorem Indexed.unique {plain digits back plain' digits' back' : Bytes}
    (indexed : Indexed name plain digits back) (indexed' : Indexed name plain' digits' back') :
    plain = plain' ∧ digits = digits' ∧ back = back' := by
  have opens := Option.some.inj (indexed.open_last.symm.trans indexed'.open_last)
  have closes := Option.some.inj (indexed.close_last.symm.trans indexed'.close_last)
  have same := indexed.whole.symm.trans indexed'.whole
  have length : digits.length = digits'.length := by omega
  obtain ⟨fronts, backs⟩ := List.append_inj same (by simp [opens, length])
  obtain ⟨plains, inside⟩ := List.append_inj fronts opens
  exact ⟨plains, (List.cons.inj inside).2, (List.cons.inj backs).2⟩

section Settings

variable {σ : Type} (m : Program.Machine (Nat × Call) Answer Stop σ) (setting : Setting)

/-- The devices keep the values of a setting: they store what they are given, and answer it. -/
structure Stores (view : σ → Nat → Bytes) : Prop where
  get : ∀ i st, ∃ st', m (i, .get setting) st = (.ok (view st i), st') ∧ view st' = view st
  set : ∀ i v st, ∃ st', m (i, .set setting v) st = (.ok (), st') ∧
    view st' = Function.update (view st) i v
  count : ∀ i direction st, ∃ n st', m (i, .getNumChannels direction) st = (.ok n, st') ∧
    view st' = view st

variable {m setting} {view : σ → Nat → Bytes}

section

variable (stores : Stores m setting view)
include stores

end

end Settings

/-- Devices that store the values of one setting, and have one channel each. -/
def shelf : Program.Machine (Nat × Call) Answer Stop (Nat → Bytes)
  | (i, .get _), st => (.ok (st i), st)
  | (i, .set _ v), st => (.ok (), Function.update st i v)
  | (_, .getNumChannels _), st => (.ok 1, st)
  | (_, .list _), st => (.ok [], st)
  | (_, .channel _ _ _), st => (.error .out_of_range, st)
  | (_, .named _ _), st => (.error .out_of_range, st)

end Soapy.Multi
