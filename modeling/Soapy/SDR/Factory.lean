import Soapy.Lib.Runs
import Soapy.Remote.Defs

/-! # Device::make and Device::unmake

Any number of threads make and unmake devices. Each of them holds the factory mutex
while it looks at the device table and the counts, and lets go of it to enumerate,
to call the driver's factory and to delete a device, so a call is a chain of atomic
steps between which the other threads may do anything.

A device is the object that a factory created, and devices are numbered in the order
of their creation: an address that is used again is another device. What an
enumeration finds, and whether a factory throws, is arbitrary. The count of a device
is a `size_t`, which the handles of one device cannot exhaust.
-/

namespace Soapy.SDR

open Lib
open Soapy.Remote (Kwargs Exn)

/-- The order of the keys of the device table. -/
instance : LinearOrder Kwargs := OrdMap.lexOrder

abbrev Device := Nat

abbrev Thread := Nat

inductive Call where
  | idle
  /-- `Device::enumerate(inputArgs)`. -/
  | enumerating (inputArgs : Kwargs)
  /-- `deviceFuture.wait()`: the future is deferred, so the thread itself calls the
      driver's factory. -/
  | creating (discoveredArgs : Kwargs) (driver : Bytes) (hybridArgs : Kwargs)
  | created (discoveredArgs : Kwargs) (result : Except Exn Device)
  /-- `delete device`. -/
  | deleting (device : Device) (argsList : List Kwargs)
  | deleted (argsList : List Kwargs)

/-- How calls end, and the deletions. -/
inductive Event where
  | returned (thread : Thread) (args : Kwargs) (device : Device)
  | threw (e : Exn)
  /-- `unmake` has passed the decrement. -/
  | unmade (device : Device)
  | deleted (device : Device)
  deriving DecidableEq

structure Factory where
  deviceTable : OrdMap Kwargs (Option Device)
  deviceCounts : OrdMap Device Nat
  calls : Thread → Call
  devices : List Kwargs
  events : List Event

/-- The positions from which a call can end or go on without a device of its own. -/
def Call.Light : Call → Prop
  | .idle | .enumerating _ | .creating .. | .created _ (.error _) => True
  | .created _ (.ok _) | .deleting .. | .deleted _ => False

namespace Factory

def init : Factory where
  deviceTable := .empty
  deviceCounts := .empty
  calls := fun _ => .idle
  devices := []
  events := []

def goto (s : Factory) (t : Thread) (c : Call) : Factory :=
  { s with calls := Function.update s.calls t c }

def record (s : Factory) (e : Event) : Factory := { s with events := s.events ++ [e] }

def ends (s : Factory) (t : Thread) (e : Event) : Factory := (s.goto t .idle).record e

/-- `getDeviceCounts()[device]++`. -/
def retain (s : Factory) (device : Device) : Factory :=
  { s with
    deviceCounts :=
      s.deviceCounts.insert device ((s.deviceCounts.find? device).getD 0 + 1) }

def getDeviceFromTable (s : Factory) (args : Kwargs) : Except Exn (Option Device) × Factory :=
  if args.entries = [] then (.ok none, s)
  else
    match s.deviceTable.find? args with
    | none => (.ok none, s)
    | some none =>
      (.error (.runtimeError (ascii "SoapySDR::Device::make() device deletion in-progress")), s)
    | some (some device) => (.ok (some device), s.retain device)

/-- Load the enumeration args with missing keys from the make argument. -/
def hybridArgs (discoveredArgs inputArgs : Kwargs) : Kwargs :=
  inputArgs.entries.foldl
    (fun hybrid it => if hybrid.find? it.1 = none then hybrid.insert it.1 it.2 else hybrid)
    discoveredArgs

def selectMake (makeFunctions : List Bytes) (hybridArgs : Kwargs) : Except Exn Bytes :=
  let specifiedDriver := hybridArgs.find? (ascii "driver")
  if specifiedDriver = none ∧ 2 < makeFunctions.length then
    .error (.runtimeError
      (ascii "SoapySDR::Device::make() no driver specified and no enumeration results"))
  else
    match makeFunctions.find? (fun name =>
        match specifiedDriver with
        | none => name ≠ ascii "null"
        | some driver => driver = name) with
    | none => .error (.runtimeError (ascii "SoapySDR::Device::make() no match"))
    | some name => .ok name

/-- `make` up to the enumeration. -/
def makeLookup (s : Factory) (t : Thread) (inputArgs : Kwargs) : Factory :=
  match s.getDeviceFromTable inputArgs with
  | (.error e, s) => s.ends t (.threw e)
  | (.ok (some device), s) => s.ends t (.returned t inputArgs device)
  | (.ok none, s) => s.goto t (.enumerating inputArgs)

/-- `make` between the enumeration and the driver's factory. The cache of futures is a local
    variable, so its entry is never valid and the future is always a new one. -/
def makeSelect (makeFunctions : List Bytes) (s : Factory) (t : Thread) (inputArgs : Kwargs)
    (results : List Kwargs) : Factory :=
  let discoveredArgs := results.headD .empty
  match s.getDeviceFromTable discoveredArgs with
  | (.error e, s) => s.ends t (.threw e)
  | (.ok (some device), s) => s.ends t (.returned t discoveredArgs device)
  | (.ok none, s) =>
    match selectMake makeFunctions (hybridArgs discoveredArgs inputArgs) with
    | .error e => s.ends t (.threw e)
    | .ok driver => s.goto t (.creating discoveredArgs driver (hybridArgs discoveredArgs inputArgs))

/-- `make` after the call of the driver's factory. -/
def makeStore (s : Factory) (t : Thread) (discoveredArgs : Kwargs) : Except Exn Device → Factory
  | .error e => s.ends t (.threw e)
  | .ok device =>
    ({ s with deviceTable := s.deviceTable.insert discoveredArgs (some device) }.retain
      device).ends t (.returned t discoveredArgs device)

def argsOf (s : Factory) (device : Device) : List Kwargs :=
  s.deviceTable.keysWhere (fun entry => entry = some device)

/-- `unmake` up to the deletion. -/
def unmakeCount (s : Factory) (t : Thread) (device : Device) : Factory :=
  match s.deviceCounts.find? device with
  | none => s.ends t (.threw (.runtimeError (ascii "SoapySDR::Device::unmake() unknown device")))
  | some count =>
    if count ≠ 1 then
      { s with deviceCounts := s.deviceCounts.insert device (count - 1) }.ends t (.unmade device)
    else
      ({ s with
        deviceCounts := s.deviceCounts.erase device
        deviceTable := s.deviceTable.mapValues
          (fun entry => if entry = some device then none else entry) }.goto t
        (.deleting device (s.argsOf device))).record (.unmade device)

inductive Action where
  | make (t : Thread) (inputArgs : Kwargs)
  | enumerate (t : Thread) (results : List Kwargs)
  | create (t : Thread)
  | fail (t : Thread) (e : Exn)
  | store (t : Thread)
  | unmake (t : Thread) (device : Device)
  | delete (t : Thread)
  | clean (t : Thread)

inductive Step (makeFunctions : List Bytes) (s : Factory) : Action → Factory → Prop
  | make (t : Thread) (inputArgs : Kwargs) (free : s.calls t = .idle) :
      Step makeFunctions s (.make t inputArgs) (s.makeLookup t inputArgs)
  | enumerate (t : Thread) (inputArgs : Kwargs) (results : List Kwargs)
      (here : s.calls t = .enumerating inputArgs) :
      Step makeFunctions s (.enumerate t results) (s.makeSelect makeFunctions t inputArgs results)
  | create (t : Thread) (discoveredArgs : Kwargs) (driver : Bytes) (hybridArgs : Kwargs)
      (here : s.calls t = .creating discoveredArgs driver hybridArgs) :
      Step makeFunctions s (.create t)
        ({ s with devices := s.devices ++ [discoveredArgs] }.goto t
          (.created discoveredArgs (.ok s.devices.length)))
  | fail (t : Thread) (discoveredArgs : Kwargs) (driver : Bytes) (hybridArgs : Kwargs) (e : Exn)
      (here : s.calls t = .creating discoveredArgs driver hybridArgs) :
      Step makeFunctions s (.fail t e) (s.goto t (.created discoveredArgs (.error e)))
  | store (t : Thread) (discoveredArgs : Kwargs) (result : Except Exn Device)
      (here : s.calls t = .created discoveredArgs result) :
      Step makeFunctions s (.store t) (s.makeStore t discoveredArgs result)
  | unmake (t : Thread) (device : Device) (free : s.calls t = .idle) :
      Step makeFunctions s (.unmake t device) (s.unmakeCount t device)
  | delete (t : Thread) (device : Device) (argsList : List Kwargs)
      (here : s.calls t = .deleting device argsList) :
      Step makeFunctions s (.delete t) ((s.goto t (.deleted argsList)).record (.deleted device))
  | clean (t : Thread) (argsList : List Kwargs) (here : s.calls t = .deleted argsList) :
      Step makeFunctions s (.clean t)
        ({ s with deviceTable := s.deviceTable.eraseAll argsList }.goto t .idle)

/-- The calls of `make` that returned the device. -/
def made (s : Factory) (d : Device) : Nat :=
  s.events.countP fun
    | .returned _ _ d' => d' = d
    | .threw _ | .unmade _ | .deleted _ => false

/-- The calls of `unmake` with the device that passed the decrement. -/
def unmade (s : Factory) (d : Device) : Nat := s.events.count (.unmade d)

def deletions (s : Factory) (d : Device) : Nat := s.events.count (.deleted d)

def Proper (s : Factory) : Action → Prop
  | .unmake _ d => s.unmade d < s.made d
  | .make .. | .enumerate .. | .create _ | .fail .. | .store _ | .delete _ | .clean _ => True

/-- Every step is one of these. -/
inductive Effect (makeFunctions : List Bytes) (s : Factory) : Action → Factory → Prop
  | throws {a : Action} (t : Thread) (e : Exn) (light : (s.calls t).Light) :
      Effect makeFunctions s a (s.ends t (.threw e))
  | finds {a : Action} (t : Thread) (args : Kwargs) (d : Device) (light : (s.calls t).Light)
      (found : s.deviceTable.find? args = some (some d)) :
      Effect makeFunctions s a ((s.retain d).ends t (.returned t args d))
  | waits (t : Thread) (inputArgs : Kwargs) (free : s.calls t = .idle) :
      Effect makeFunctions s (.make t inputArgs) (s.goto t (.enumerating inputArgs))
  | launches (t : Thread) (inputArgs : Kwargs) (results : List Kwargs) (driver : Bytes)
      (here : s.calls t = .enumerating inputArgs)
      (absent : results.headD .empty ≠ .empty →
        s.deviceTable.find? (results.headD .empty) = none)
      (selected : selectMake makeFunctions (hybridArgs (results.headD .empty) inputArgs) =
        .ok driver) :
      Effect makeFunctions s (.enumerate t results)
        (s.goto t (.creating (results.headD .empty) driver
          (hybridArgs (results.headD .empty) inputArgs)))
  | creates (t : Thread) (args : Kwargs) (driver : Bytes) (hybrid : Kwargs)
      (here : s.calls t = .creating args driver hybrid) :
      Effect makeFunctions s (.create t)
        ({ s with devices := s.devices ++ [args] }.goto t (.created args (.ok s.devices.length)))
  | fails (t : Thread) (args : Kwargs) (driver : Bytes) (hybrid : Kwargs) (e : Exn)
      (here : s.calls t = .creating args driver hybrid) :
      Effect makeFunctions s (.fail t e) (s.goto t (.created args (.error e)))
  | stores (t : Thread) (args : Kwargs) (d : Device) (here : s.calls t = .created args (.ok d)) :
      Effect makeFunctions s (.store t)
        (({ s with deviceTable := s.deviceTable.insert args (some d) }.retain d).ends t
          (.returned t args d))
  | releases (t : Thread) (d : Device) (count : Nat) (free : s.calls t = .idle)
      (counted : s.deviceCounts.find? d = some count) (more : count ≠ 1) :
      Effect makeFunctions s (.unmake t d)
        ({ s with deviceCounts := s.deviceCounts.insert d (count - 1) }.ends t (.unmade d))
  | dooms (t : Thread) (d : Device) (free : s.calls t = .idle)
      (counted : s.deviceCounts.find? d = some 1) :
      Effect makeFunctions s (.unmake t d)
        (({ s with
          deviceCounts := s.deviceCounts.erase d
          deviceTable := s.deviceTable.mapValues
            (fun entry => if entry = some d then none else entry) }.goto t
          (.deleting d (s.argsOf d))).record (.unmade d))
  | deletes (t : Thread) (d : Device) (argsList : List Kwargs)
      (here : s.calls t = .deleting d argsList) :
      Effect makeFunctions s (.delete t) ((s.goto t (.deleted argsList)).record (.deleted d))
  | cleans (t : Thread) (argsList : List Kwargs) (here : s.calls t = .deleted argsList) :
      Effect makeFunctions s (.clean t)
        ({ s with deviceTable := s.deviceTable.eraseAll argsList }.goto t .idle)

variable {makeFunctions : List Bytes} {s s' : Factory} {a : Action}

theorem getDeviceFromTable_cases (s : Factory) (args : Kwargs) :
    (∃ e, s.getDeviceFromTable args = (.error e, s)) ∨
    (∃ d, s.deviceTable.find? args = some (some d) ∧
      s.getDeviceFromTable args = (.ok (some d), s.retain d)) ∨
    ((args ≠ .empty → s.deviceTable.find? args = none) ∧
      s.getDeviceFromTable args = (.ok none, s)) := by
  unfold getDeviceFromTable
  split
  · rename_i none
    exact .inr (.inr ⟨fun some => absurd (OrdMap.ext none) some, rfl⟩)
  · split
    · rename_i missing
      exact .inr (.inr ⟨fun _ => missing, rfl⟩)
    · exact .inl ⟨_, rfl⟩
    · rename_i d found
      exact .inr (.inl ⟨d, found, rfl⟩)

theorem Step.effect (step : Step makeFunctions s a s') : Effect makeFunctions s a s' := by
  cases step with
  | make t inputArgs free =>
    have light : (s.calls t).Light := by
      rw [free]
      trivial
    unfold makeLookup
    rcases s.getDeviceFromTable_cases inputArgs with ⟨e, looked⟩ | ⟨d, found, looked⟩ | ⟨_, looked⟩
    · rw [looked]
      exact .throws t e light
    · rw [looked]
      exact .finds t inputArgs d light found
    · rw [looked]
      exact .waits t inputArgs free
  | enumerate t inputArgs results here =>
    have light : (s.calls t).Light := by
      rw [here]
      trivial
    unfold makeSelect
    rcases s.getDeviceFromTable_cases (results.headD .empty) with
      ⟨e, looked⟩ | ⟨d, found, looked⟩ | ⟨absent, looked⟩
    · simp only [looked]
      exact .throws t e light
    · simp only [looked]
      exact .finds t _ d light found
    · simp only [looked]
      split
      · exact .throws t _ light
      · rename_i driver selected
        exact .launches t inputArgs results driver here absent selected
  | create t args driver hybrid here => exact .creates t args driver hybrid here
  | fail t args driver hybrid e here => exact .fails t args driver hybrid e here
  | store t args result here =>
    cases result with
    | ok d => exact .stores t args d here
    | error e =>
      have light : (s.calls t).Light := by
        rw [here]
        trivial
      exact .throws t e light
  | unmake t d free =>
    have light : (s.calls t).Light := by
      rw [free]
      trivial
    unfold unmakeCount
    split
    · exact .throws t _ light
    · rename_i count counted
      split
      · rename_i more
        exact .releases t d count free counted more
      · rename_i last
        rw [ne_eq, not_not] at last
        subst last
        exact .dooms t d free counted
  | delete t d argsList here => exact .deletes t d argsList here
  | clean t argsList here => exact .cleans t argsList here

end Factory

end Soapy.SDR
