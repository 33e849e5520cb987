import Soapy.Lib.Runs
import Soapy.Lime.FpgaRegisters

/-! # The FPGA with and without its register cache

The same calls with the cache and without it, on a device whose volatile registers change at
any time, also inside of a transfer.
-/

namespace Soapy.Lime

open Lib

namespace FPGA

/-- What volatile registers have become just before an access. -/
abbrev Drift := UInt32 → Option UInt32

def drift (device : UInt32 → UInt32) (d : Drift) : UInt32 → UInt32 := fun a =>
  if volatileRegs.contains a then (d a).getD (device a) else device a

def take (device : UInt32 → UInt32) (write : UInt32 × UInt32) : UInt32 → UInt32 :=
  if readonlyRegs.contains write.1 then device else Function.update device write.1 write.2

/-- `connection->WriteRegisters` of all entries. -/
def takeAll (device : UInt32 → UInt32) (writes : List (Drift × UInt32 × UInt32)) :
    UInt32 → UInt32 :=
  writes.foldl (fun device w => take (drift device w.1) w.2) device

/-- The addresses, each with the value that its register has at its turn. -/
def reads (device : UInt32 → UInt32) : List (Drift × UInt32) → List (UInt32 × UInt32)
  | [] => []
  | (d, a) :: rest => (a, drift device d a) :: reads (drift device d) rest

def afterReads (device : UInt32 → UInt32) (addrs : List (Drift × UInt32)) : UInt32 → UInt32 :=
  addrs.foldl (fun device a => drift device a.1) device

/-- The loop of `WriteRegisters` leaves the entry out. -/
def Pending.leavesOut (p : Pending) (write : UInt32 × UInt32) : Bool :=
  readonlyRegs.contains write.1 || p.regsCache write.1 = some write.2

/-- The device behind the entries that are sent. At the turn of one that is left out it changes by
    itself only. -/
def deliver (p : Pending) (device : UInt32 → UInt32) :
    List (Drift × UInt32 × UInt32) → (UInt32 → UInt32)
  | [] => device
  | (d, w) :: rest =>
    deliver (p.add w) (if p.leavesOut w then drift device d else take (drift device d) w) rest

/-- A read asks the device for the register. -/
def asks (f : FPGA) (a : UInt32) : Bool := volatileRegs.contains a || (f.regsCache a).isNone

def readCached (f : FPGA) (addrs : List (Drift × UInt32)) : List UInt32 × FPGA :=
  let f' := f.refresh ((reads f.device addrs).filter fun v => f.asks v.1)
  (addrs.map fun a => (f'.regsCache a.2).getD 0, { f' with device := afterReads f.device addrs })

end FPGA

/-- The calls, and changes of the device between them. -/
inductive FpgaCall where
  | enableValuesCache (enabled : Bool)
  | writeRegisters (writes : List (FPGA.Drift × UInt32 × UInt32))
  | readRegisters (addrs : List (FPGA.Drift × UInt32))
  | drift (d : FPGA.Drift)

def FPGA.perform (f : FPGA) : FpgaCall → List UInt32 × FPGA
  | .enableValuesCache enabled => ([], f.enableValuesCache enabled)
  | .writeRegisters writes =>
    if f.useCache then
      ([], { f with
        regsCache := (f.gather (writes.map Prod.snd)).regsCache
        device := deliver ⟨f.regsCache, []⟩ f.device writes })
    else ([], { f with device := takeAll f.device writes })
  | .readRegisters addrs =>
    if f.useCache then f.readCached addrs
    else ((reads f.device addrs).map Prod.snd, { f with device := afterReads f.device addrs })
  | .drift d => ([], { f with device := FPGA.drift f.device d })

def performDirect (device : UInt32 → UInt32) (call : FpgaCall) : List UInt32 × (UInt32 → UInt32) :=
  match call with
  | .enableValuesCache _ => ([], device)
  | .writeRegisters writes => ([], FPGA.takeAll device writes)
  | .readRegisters addrs => ((FPGA.reads device addrs).map Prod.snd, FPGA.afterReads device addrs)
  | .drift d => ([], FPGA.drift device d)

namespace FPGA

variable {device : UInt32 → UInt32} {writes : List (UInt32 × UInt32)}

/-- Nothing changes. -/
def still : Drift := fun _ => none

variable {f : FPGA} {p : Pending} {d : Drift} {a : UInt32}

/-- The registers that the device changes. -/
def Volatile : Set UInt32 := {a | volatileRegs.contains a}

theorem drift_of_not_volatile (device : UInt32 → UInt32) (d : Drift) (fixed : a ∉ Volatile) :
    drift device d a = device a := if_neg fixed

theorem afterReads_of_not_volatile (device : UInt32 → UInt32) (addrs : List (Drift × UInt32))
    (fixed : a ∉ Volatile) : afterReads device addrs a = device a := by
  induction addrs generalizing device with
  | nil => rfl
  | cons r rest ih =>
    rw [afterReads, List.foldl_cons]
    exact (ih _).trans (drift_of_not_volatile device r.1 fixed)

theorem reads_of_not_volatile (device : UInt32 → UInt32) {addrs : List (Drift × UInt32)}
    {v : UInt32 × UInt32} (member : v ∈ reads device addrs) (fixed : v.1 ∉ Volatile) :
    v.2 = device v.1 := by
  induction addrs generalizing device with
  | nil => cases member
  | cons r rest ih =>
    cases List.mem_cons.mp member with
    | inl head =>
      rw [head] at fixed ⊢
      exact drift_of_not_volatile device r.1 fixed
    | inr tail => exact (ih _ tail).trans (drift_of_not_volatile device r.1 fixed)

theorem reads_addresses (device : UInt32 → UInt32) (addrs : List (Drift × UInt32)) :
    (reads device addrs).map Prod.fst = addrs.map Prod.snd := by
  induction addrs generalizing device with
  | nil => rfl
  | cons r rest ih => rw [reads, List.map_cons, ih, List.map_cons]

variable {cache : UInt32 → Option UInt32}

theorem Knows.drift (knows : Knows cache Volatile device)
    (d : Drift) : Knows cache Volatile (drift device d) := by
  intro a v cached fixed
  exact (drift_of_not_volatile device d fixed).trans (knows a v cached fixed)

def Stale (p : Pending) (device : UInt32 → UInt32) (write : UInt32 × UInt32) : Prop :=
  write.1 ∈ Volatile ∧ readonlyRegs.contains write.1 = false ∧ p.regsCache write.1 = some write.2 ∧
    device write.1 ≠ write.2

/-- No entry of the batch is stale at its turn. -/
def Fresh (p : Pending) (device : UInt32 → UInt32) : List (Drift × UInt32 × UInt32) → Prop
  | [] => True
  | (d, w) :: rest =>
    ¬ Stale p (FPGA.drift device d) w ∧ Fresh (p.add w) (take (FPGA.drift device d) w) rest

/-- Volatile registers that are read more than once in the batch keep their values meanwhile. -/
def Steady (device : UInt32 → UInt32) (addrs : List (Drift × UInt32)) : Prop :=
  ∀ v ∈ reads device addrs, ∀ v' ∈ reads device addrs, v.1 ∈ Volatile → v.1 = v'.1 → v.2 = v'.2

theorem add_knows (knows : Knows p.regsCache Volatile device) {write : UInt32 × UInt32}
    (current : ¬ Stale p device write) :
    (if p.leavesOut write then device else take device write) = take device write ∧
      Knows (p.add write).regsCache Volatile (take device write) := by
  unfold Pending.leavesOut take Pending.add
  cases readonly : readonlyRegs.contains write.1 with
  | true => exact ⟨by simp, knows⟩
  | false =>
    unfold Pending.store
    by_cases cached : p.regsCache write.1 = some write.2
    · have value : device write.1 = write.2 := by
        by_cases moving : write.1 ∈ Volatile
        · by_contra other
          exact current ⟨moving, readonly, cached, other⟩
        · exact knows _ _ cached moving
      simp only [cached, decide_true, Bool.or_true, if_true, Bool.false_eq_true, if_false]
      rw [← value, Function.update_eq_self]
      exact ⟨rfl, knows⟩
    · simp only [cached, decide_false, Bool.or_false, Bool.false_eq_true, if_false, true_and]
      intro a v stored fixed
      by_cases here : a = write.1
      · subst here
        simpa using stored
      · rw [Function.update_of_ne here] at stored ⊢
        exact knows a v stored fixed

theorem deliver_knows (knows : Knows p.regsCache Volatile device)
    {writes : List (Drift × UInt32 × UInt32)} (fresh : Fresh p device writes) :
    deliver p device writes = takeAll device writes ∧
      Knows ((writes.map Prod.snd).foldl Pending.add p).regsCache Volatile
        (takeAll device writes) := by
  induction writes generalizing p device with
  | nil => exact ⟨rfl, knows⟩
  | cons entry rest ih =>
    obtain ⟨d, w⟩ := entry
    obtain ⟨current, later⟩ := fresh
    obtain ⟨same, after⟩ := add_knows (knows.drift d) current
    have whole := ih after later
    rw [deliver, same]
    exact whole

theorem stored_value {values : List (UInt32 × UInt32)}
    (agree : ∀ v ∈ values, ∀ v' ∈ values, v.1 = v'.1 → v.2 = v'.2) {v : UInt32 × UInt32}
    (member : v ∈ values) :
    values.foldl (fun (cache : UInt32 → Option UInt32) v => Function.update cache v.1 (some v.2))
      cache v.1 = some v.2 := by
  induction values using List.reverseRecOn with
  | nil => cases member
  | append_singleton rest last ih =>
    rw [List.foldl_append]
    by_cases here : v.1 = last.1
    · have value := agree v member last (by simp) here
      simp [here, value]
    · have before : v ∈ rest := by
        cases List.mem_append.mp member with
        | inl before => exact before
        | inr one => exact absurd (congrArg Prod.fst (List.mem_singleton.mp one)) here
      simp only [List.foldl_cons, List.foldl_nil, Function.update_of_ne here]
      apply ih _ before
      intro v first v' second
      exact agree v (List.mem_append_left _ first) v' (List.mem_append_left _ second)

theorem stored_outside {values : List (UInt32 × UInt32)} (outside : ∀ v ∈ values, v.1 ≠ a) :
    values.foldl (fun (cache : UInt32 → Option UInt32) v => Function.update cache v.1 (some v.2))
      cache a = cache a := by
  induction values generalizing cache with
  | nil => rfl
  | cons v rest ih =>
    rw [List.foldl_cons, ih fun v' member => outside v' (List.mem_cons_of_mem _ member)]
    exact Function.update_of_ne (outside v List.mem_cons_self).symm _ _

theorem readCached_knows (knows : Knows f.regsCache Volatile f.device)
    {addrs : List (Drift × UInt32)} (steady : Steady f.device addrs) :
    (f.readCached addrs).1 = (reads f.device addrs).map Prod.snd ∧
      Knows (f.readCached addrs).2.regsCache Volatile (afterReads f.device addrs) := by
  let asked := (reads f.device addrs).filter fun v => f.asks v.1
  have agree : ∀ v ∈ asked, ∀ v' ∈ asked, v.1 = v'.1 → v.2 = v'.2 := by
    intro v first v' second same
    have member := (List.mem_filter.mp first).1
    have member' := (List.mem_filter.mp second).1
    by_cases moving : v.1 ∈ Volatile
    · exact steady v member v' member' moving same
    · rw [reads_of_not_volatile f.device member moving,
        reads_of_not_volatile f.device member' (same ▸ moving), same]
  constructor
  · have found : ∀ v ∈ reads f.device addrs,
        ((f.refresh asked).regsCache v.1).getD 0 = v.2 := by
      intro v member
      cases asks : f.asks v.1 with
      | true =>
        have stored : (f.refresh asked).regsCache v.1 = some v.2 :=
          stored_value agree (List.mem_filter.mpr ⟨member, asks⟩)
        rw [stored, Option.getD_some]
      | false =>
        obtain ⟨fixed, kept⟩ := Bool.or_eq_false_iff.mp asks
        obtain ⟨x, value⟩ := Option.isSome_iff_exists.mp (by simpa using kept)
        have steadfast : v.1 ∉ Volatile := by
          intro moving
          exact Bool.false_ne_true (fixed.symm.trans moving)
        have old : (f.refresh asked).regsCache v.1 = f.regsCache v.1 := by
          apply stored_outside
          intro v' second same
          have asks' := (List.mem_filter.mp second).2
          rw [same, asks] at asks'
          cases asks'
        rw [old, value, Option.getD_some, reads_of_not_volatile f.device member steadfast]
        exact (knows _ _ value steadfast).symm
    have lookups := congrArg (List.map fun a => ((f.refresh asked).regsCache a).getD 0)
      (reads_addresses f.device addrs)
    rw [List.map_map, List.map_map] at lookups
    exact lookups.symm.trans (List.map_congr_left found)
  · intro a v stored fixed
    rw [afterReads_of_not_volatile f.device addrs fixed]
    by_cases there : ∃ w ∈ asked, w.1 = a
    · obtain ⟨w, member, rfl⟩ := there
      have here : (f.refresh asked).regsCache w.1 = some w.2 := stored_value agree member
      rw [← reads_of_not_volatile f.device (List.mem_filter.mp member).1 fixed]
      exact Option.some.inj (here.symm.trans stored)
    · have old : (f.refresh asked).regsCache a = f.regsCache a :=
        stored_outside fun w member same => there ⟨w, member, same⟩
      exact knows a v (old.symm.trans stored) fixed

end FPGA

/-- The two sequences, with the values that each has returned. -/
structure FpgaBench where
  fpga : FPGA
  direct : UInt32 → UInt32
  returned : List (List UInt32)
  expected : List (List UInt32)

namespace FpgaBench

/-- Behind the constructor of `FPGA`. -/
def start (device : UInt32 → UInt32) : FpgaBench := ⟨⟨false, fun _ => none, device⟩, device, [], []⟩

def perform (b : FpgaBench) (call : FpgaCall) : FpgaBench where
  fpga := (b.fpga.perform call).2
  direct := (performDirect b.direct call).2
  returned := b.returned ++ [(b.fpga.perform call).1]
  expected := b.expected ++ [(performDirect b.direct call).1]

def Step (b : FpgaBench) (call : FpgaCall) (b' : FpgaBench) : Prop := b' = b.perform call

def Current (b : FpgaBench) : FpgaCall → Prop
  | .writeRegisters writes =>
    b.fpga.useCache → FPGA.Fresh ⟨b.fpga.regsCache, []⟩ b.fpga.device writes
  | .readRegisters addrs => b.fpga.useCache → FPGA.Steady b.fpga.device addrs
  | .enableValuesCache _ | .drift _ => True

structure Inv (b : FpgaBench) : Prop where
  same : b.fpga.device = b.direct
  values : b.returned = b.expected
  knows : FPGA.Knows b.fpga.regsCache FPGA.Volatile b.fpga.device
  cleared : b.fpga.useCache = false → b.fpga.regsCache = fun _ => none

variable {b b' : FpgaBench}

theorem Inv.start (device : UInt32 → UInt32) : (start device).Inv :=
  ⟨rfl, rfl, fun _ _ stored => (by cases stored), fun _ => rfl⟩

theorem Inv.perform {call : FpgaCall} (inv : b.Inv) (current : b.Current call) :
    (b.perform call).Inv := by
  obtain ⟨⟨useCache, regsCache, device⟩, direct, returned, expected⟩ := b
  obtain ⟨same, values, knows, cleared⟩ := inv
  change device = direct at same
  change returned = expected at values
  subst same
  subst values
  cases call with
  | enableValuesCache enabled =>
    refine ⟨rfl, rfl, ?_, ?_⟩
    · intro a v stored fixed
      cases enabled with
      | true => exact knows a v stored fixed
      | false => cases stored
    · intro disabled
      cases enabled with
      | true => cases disabled
      | false => rfl
  | drift d => exact ⟨rfl, rfl, knows.drift d, cleared⟩
  | writeRegisters writes =>
    cases useCache with
    | true =>
      obtain ⟨sent, known⟩ := FPGA.deliver_knows knows (current rfl)
      exact ⟨sent, rfl, by rw [← sent] at known; exact known, fun disabled => by cases disabled⟩
    | false =>
      refine ⟨rfl, rfl, ?_, cleared⟩
      intro a v stored _
      have none := congrFun (cleared rfl) a
      exact absurd (none.symm.trans stored) nofun
  | readRegisters addrs =>
    cases useCache with
    | true =>
      obtain ⟨values, known⟩ := FPGA.readCached_knows knows (current rfl)
      exact ⟨rfl, congrArg (fun v => returned ++ [v]) values, known,
        fun disabled => by cases disabled⟩
    | false =>
      refine ⟨rfl, rfl, ?_, cleared⟩
      intro a v stored _
      have none := congrFun (cleared rfl) a
      exact absurd (none.symm.trans stored) nofun

/-- In every run in which no write is stale and every batch is steady, the calls with the cache
    return what they return without it, and leave the same on the device. -/
theorem fpga_cache_agrees {device : UInt32 → UInt32} (run : Runs Step Current (start device) b) :
    b.returned = b.expected ∧ b.fpga.device = b.direct := by
  have inv : b.Inv := run.keeps (fun b call b' inv current step => by
    rw [step]
    exact inv.perform current) (Inv.start device)
  exact ⟨inv.values, inv.same⟩

/-- Register `a` becomes `v`. -/
def becomes (a v : UInt32) : FPGA.Drift := fun a' => if a' = a then some v else none

def staleRun : FpgaBench :=
  ((((start fun _ => 5).perform (.enableValuesCache true)).perform
    (.readRegisters [(FPGA.still, 0x060)])).perform (.drift (becomes 0x060 7))).perform
    (.writeRegisters [(FPGA.still, 0x060, 5)])

def unsteadyRun : FpgaBench :=
  ((start fun _ => 5).perform (.enableValuesCache true)).perform
    (.readRegisters [(FPGA.still, 0x100), (becomes 0x100 7, 0x100)])

/-- The write is not sent, and the first of the two values is lost. -/
theorem fpga_cache_differs :
    (staleRun.fpga.device 0x060 = 7 ∧ staleRun.direct 0x060 = 5) ∧
      unsteadyRun.returned = [[], [7, 7]] ∧ unsteadyRun.expected = [[], [5, 7]] := by
  decide

theorem fpga_cache_agrees_written :
    let b := (((start fun _ => 5).perform (.enableValuesCache true)).perform
      (.readRegisters [(FPGA.still, 0x060)])).perform (.writeRegisters [(becomes 0x060 7, 0x060, 6)])
    b.returned = b.expected ∧ b.fpga.device = b.direct := by
  have steady : FPGA.Steady (fun _ => 5) [(FPGA.still, 0x060)] := by
    unfold FPGA.Steady
    simp [FPGA.reads]
  have fresh : ¬ FPGA.Stale ⟨Function.update (fun _ => none) 0x060 (some 5), []⟩
      (FPGA.drift (fun _ => 5) (becomes 0x060 7)) (0x060, 6) := by
    intro stale
    exact absurd stale.2.2.1 (by decide)
  exact fpga_cache_agrees (((Runs.refl.tail rfl trivial).tail rfl fun _ => steady).tail rfl
    fun _ => ⟨fresh, trivial⟩)

end FpgaBench

end Soapy.Lime
