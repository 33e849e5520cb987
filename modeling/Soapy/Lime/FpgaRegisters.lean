import Mathlib

/-! # The register cache of the FPGA

Writes of the value that the cache has are not sent. The cache is changed before the
transfer is tried, so after a transfer that failed nothing is known of its registers.
-/

namespace Soapy.Lime

/-- A transfer on the connection. When it fails the device stays as it is, and a read leaves
    something in the buffer. -/
structure Transfer where
  status : Int
  left : Nat → UInt32

structure FPGA where
  useCache : Bool
  regsCache : UInt32 → Option UInt32
  /-- The registers behind `connection`. -/
  device : UInt32 → UInt32

namespace FPGA

def readonlyRegs : List UInt32 :=
  [0x000, 0x001, 0x002, 0x003, 0x021, 0x022, 0x065, 0x067, 0x069, 0x06A,
    0x06B, 0x06C, 0x06D, 0x06F, 0x070, 0x071, 0x072, 0x073, 0x074, 0x076,
    0x077, 0x078, 0x07A, 0x07B, 0x07C, 0x0C2, 0x100, 0x101, 0x102, 0x103,
    0x104, 0x105, 0x106, 0x107, 0x108, 0x109, 0x10A, 0x10B, 0x10C, 0x10D,
    0x10E, 0x10F, 0x110, 0x111, 0x114]

def volatileRegs : List UInt32 :=
  [0x021, 0x022, 0x060, 0x065, 0x067, 0x069, 0x06A, 0x06B, 0x06C, 0x06D,
    0x06F, 0x070, 0x071, 0x072, 0x073, 0x074, 0x076, 0x077, 0x078, 0x07A,
    0x07B, 0x07C, 0x0C2, 0x100, 0x101, 0x102, 0x103, 0x104, 0x105, 0x106,
    0x107, 0x108, 0x109, 0x10A, 0x10B, 0x10C, 0x10D, 0x10E, 0x10F, 0x110,
    0x111, 0x114]

def writeAll (device : UInt32 → UInt32) (writes : List (UInt32 × UInt32)) : UInt32 → UInt32 :=
  writes.foldl (fun device w => Function.update device w.1 w.2) device

def enableValuesCache (f : FPGA) (enabled : Bool) : FPGA :=
  { f with
    useCache := enabled
    regsCache := if enabled then f.regsCache else fun _ => none }

/-- `connection->WriteRegisters`. -/
def send (f : FPGA) (writes : List (UInt32 × UInt32)) (transfer : Int) : Int × FPGA :=
  (transfer, if transfer = 0 then { f with device := writeAll f.device writes } else f)

/-- The variables of the loop of `WriteRegisters`. -/
structure Pending where
  regsCache : UInt32 → Option UInt32
  sent : List (UInt32 × UInt32)

def Pending.store (p : Pending) (write : UInt32 × UInt32) : Pending :=
  if p.regsCache write.1 = some write.2 then p
  else
    { regsCache := Function.update p.regsCache write.1 (some write.2)
      sent := p.sent ++ [write] }

def Pending.add (p : Pending) (write : UInt32 × UInt32) : Pending :=
  if readonlyRegs.contains write.1 then p else p.store write

def gather (f : FPGA) (writes : List (UInt32 × UInt32)) : Pending :=
  writes.foldl Pending.add ⟨f.regsCache, []⟩

def writeRegisters (f : FPGA) (writes : List (UInt32 × UInt32)) (transfer : Int) : Int × FPGA :=
  if f.useCache then
    let p := f.gather writes
    let f := { f with regsCache := p.regsCache }
    if p.sent = [] then (0, f) else f.send p.sent transfer
  else f.send writes transfer

/-- `connection->ReadRegisters`: what is in the buffer afterwards. -/
def buffer (f : FPGA) (addrs : List UInt32) (transfer : Transfer) : List UInt32 :=
  if transfer.status = 0 then addrs.map f.device else addrs.mapIdx fun i _ => transfer.left i

/-- The registers that a read asks the device for. -/
def asked (f : FPGA) (addrs : List UInt32) : List UInt32 :=
  addrs.filter fun a => volatileRegs.contains a || (f.regsCache a).isNone

def refresh (f : FPGA) (values : List (UInt32 × UInt32)) : FPGA :=
  { f with
    regsCache := values.foldl (fun cache v => Function.update cache v.1 (some v.2)) f.regsCache }

/-- The values are read from the cache, where `operator[]` makes a zero for a key that is
    not there. -/
def readRegisters (f : FPGA) (addrs : List UInt32) (transfer : Transfer) :
    Int × List UInt32 × FPGA :=
  if f.useCache then
    if f.asked addrs ≠ [] ∧ transfer.status < 0 then (-1, [], f)
    else
      let f := f.refresh ((f.asked addrs).zip (f.buffer (f.asked addrs) transfer))
      (0, addrs.map fun a => (f.regsCache a).getD 0, f)
  else (transfer.status, f.buffer addrs transfer, f)

def Knows (cache : UInt32 → Option UInt32) (but : Set UInt32) (device : UInt32 → UInt32) : Prop :=
  ∀ a v, cache a = some v → a ∉ but → device a = v

def writable (writes : List (UInt32 × UInt32)) : List (UInt32 × UInt32) :=
  writes.filter fun w => !readonlyRegs.contains w.1

def touched (writes : List (UInt32 × UInt32)) : Set UInt32 := {a | ∃ w ∈ writable writes, w.1 = a}

theorem gather_eq (f : FPGA) (writes : List (UInt32 × UInt32)) :
    f.gather writes = (writable writes).foldl Pending.store ⟨f.regsCache, []⟩ := by
  rw [writable, List.foldl_filter]
  unfold gather
  congr 1
  funext p w
  rw [Pending.add]
  cases readonlyRegs.contains w.1 <;> rfl

theorem writeAll_snoc (device : UInt32 → UInt32) (writes : List (UInt32 × UInt32))
    (w : UInt32 × UInt32) :
    writeAll device (writes ++ [w]) = Function.update (writeAll device writes) w.1 w.2 := by
  rw [writeAll, List.foldl_append]
  rfl

namespace Pending

variable {p : Pending} {but : Set UInt32} {device : UInt32 → UInt32} {write : UInt32 × UInt32}
  {writes : List (UInt32 × UInt32)}

def Sendable (cache : UInt32 → Option UInt32) (but : Set UInt32) (write : UInt32 × UInt32) : Prop :=
  write.1 ∈ but → cache write.1 ≠ some write.2

theorem store_knows (knows : Knows p.regsCache but (writeAll device p.sent))
    (sendable : Sendable p.regsCache but write) :
    Knows (p.store write).regsCache (but \ {write.1}) (writeAll device (p.store write).sent) ∧
      writeAll device (p.store write).sent =
        Function.update (writeAll device p.sent) write.1 write.2 := by
  unfold store
  by_cases there : p.regsCache write.1 = some write.2
  · have known : write.1 ∉ but := fun doubtful => sendable doubtful there
    have value := knows write.1 write.2 there known
    rw [if_pos there]
    constructor
    · intro a v cached outside
      exact knows a v cached fun member => outside ⟨member, fun here => known (here ▸ member)⟩
    · rw [← value, Function.update_eq_self]
  · rw [if_neg there]
    refine ⟨?_, writeAll_snoc device p.sent write⟩
    intro a v cached outside
    change Function.update p.regsCache write.1 (some write.2) a = some v at cached
    rw [writeAll_snoc]
    by_cases here : a = write.1
    · subst here
      simpa using cached
    · rw [Function.update_of_ne here] at cached ⊢
      exact knows a v cached fun member => outside ⟨member, here⟩

theorem store_cache (p : Pending) (write : UInt32 × UInt32) {a : UInt32} (other : a ≠ write.1) :
    (p.store write).regsCache a = p.regsCache a := by
  unfold store
  split
  · rfl
  · exact Function.update_of_ne other _ _

theorem storeAll_knows (knows : Knows p.regsCache but (writeAll device p.sent))
    (sendable : ∀ w ∈ writes, Sendable p.regsCache but w) :
    Knows (writes.foldl store p).regsCache (but \ {a | ∃ w ∈ writes, w.1 = a})
        (writeAll device (writes.foldl store p).sent) ∧
      writeAll device (writes.foldl store p).sent = writeAll (writeAll device p.sent) writes := by
  induction writes generalizing p but with
  | nil =>
    refine ⟨fun a v cached outside => knows a v cached fun member => outside ⟨member, ?_⟩, rfl⟩
    intro none
    obtain ⟨w, listed, _⟩ := none
    cases listed
  | cons w rest ih =>
    obtain ⟨first, taken⟩ := store_knows knows (sendable w List.mem_cons_self)
    have later : ∀ w' ∈ rest, Sendable (p.store w).regsCache (but \ {w.1}) w' := by
      intro w' member doubtful
      rw [store_cache p w doubtful.2]
      exact sendable w' (List.mem_cons_of_mem _ member) doubtful.1
    obtain ⟨after, whole⟩ := ih first later
    constructor
    · intro a v cached outside
      apply after a v cached
      intro left
      apply outside
      refine ⟨left.1.1, ?_⟩
      intro here
      obtain ⟨w', listed, same⟩ := here
      cases List.mem_cons.mp listed with
      | inl head => exact left.1.2 (head ▸ same.symm)
      | inr tail => exact left.2 ⟨w', tail, same⟩
    · rw [List.foldl_cons, whole, taken]
      rfl

theorem storeAll_outside {a : UInt32} (outside : ∀ w ∈ writes, w.1 ≠ a) :
    (writes.foldl store p).regsCache a = p.regsCache a := by
  induction writes generalizing p with
  | nil => rfl
  | cons w rest ih =>
    rw [List.foldl_cons, ih fun w' member => outside w' (List.mem_cons_of_mem _ member)]
    exact store_cache p w (outside w List.mem_cons_self).symm

end Pending

variable {f : FPGA} {but : Set UInt32} {addrs : List UInt32}

/-- A write call returns zero only when the device has what was written, and then the cache
    knows the registers. When it fails it knows nothing of them. -/
theorem writeRegisters_knows (cached : f.useCache) (knows : Knows f.regsCache but f.device)
    {writes : List (UInt32 × UInt32)}
    (sendable : ∀ w ∈ writable writes, Pending.Sendable f.regsCache but w) (transfer : Int) :
    (f.writeRegisters writes transfer).2.useCache ∧
    ((f.writeRegisters writes transfer).1 = 0 →
      (f.writeRegisters writes transfer).2.device = writeAll f.device (writable writes) ∧
      Knows (f.writeRegisters writes transfer).2.regsCache (but \ touched writes)
        (f.writeRegisters writes transfer).2.device) ∧
    ((f.writeRegisters writes transfer).1 ≠ 0 →
      Knows (f.writeRegisters writes transfer).2.regsCache (but ∪ touched writes)
        (f.writeRegisters writes transfer).2.device) := by
  have start : Knows (Pending.mk f.regsCache []).regsCache but (writeAll f.device []) := knows
  obtain ⟨after, whole⟩ := Pending.storeAll_knows start sendable
  rw [← gather_eq] at after whole
  have taken : writeAll f.device (f.gather writes).sent = writeAll f.device (writable writes) :=
    whole
  unfold writeRegisters
  rw [if_pos cached]
  by_cases nothing : (f.gather writes).sent = []
  · rw [nothing] at after taken
    simp only [nothing, if_true]
    exact ⟨cached, fun _ => ⟨taken, after⟩, fun failed => absurd rfl failed⟩
  · simp only [nothing, if_false, send]
    by_cases done : transfer = 0
    · simp only [done, if_true]
      exact ⟨cached, fun _ => ⟨taken, after⟩, fun failed => absurd rfl failed⟩
    · simp only [done, if_false]
      refine ⟨cached, fun zero => zero.elim, fun _ => ?_⟩
      intro a v stored outside
      rw [Set.mem_union, not_or] at outside
      apply knows a v ?_ outside.1
      rw [gather_eq, Pending.storeAll_outside] at stored
      · exact stored
      · exact fun w member same => outside.2 ⟨w, member, same⟩

theorem refresh_cache (f : FPGA) (addrs : List UInt32) (a : UInt32) :
    (f.refresh (addrs.zip (addrs.map f.device))).regsCache a =
      if a ∈ addrs then some (f.device a) else f.regsCache a := by
  have stored (cache : UInt32 → Option UInt32) :
      (addrs.zip (addrs.map f.device)).foldl
        (fun (cache : UInt32 → Option UInt32) v => Function.update cache v.1 (some v.2)) cache a =
        if a ∈ addrs then some (f.device a) else cache a := by
    induction addrs generalizing cache with
    | nil => rfl
    | cons head rest ih =>
      rw [List.map_cons, List.zip_cons_cons, List.foldl_cons, ih]
      by_cases later : a ∈ rest
      · simp [later]
      · by_cases here : a = head
        · subst here
          simp [later]
        · simp [later, here]
  exact stored f.regsCache

theorem readRegisters_knows (cached : f.useCache) (knows : Knows f.regsCache but f.device)
    (fresh : ∀ a ∈ addrs, a ∈ but → a ∈ f.asked addrs) {transfer : Transfer}
    (done : transfer.status = 0 ∨ f.asked addrs = []) :
    (f.readRegisters addrs transfer).1 = 0 ∧
      (f.readRegisters addrs transfer).2.1 = addrs.map f.device ∧
      (f.readRegisters addrs transfer).2.2.useCache ∧
      (f.readRegisters addrs transfer).2.2.device = f.device ∧
      Knows (f.readRegisters addrs transfer).2.2.regsCache (but \ {a | a ∈ f.asked addrs})
        f.device := by
  have buffer : f.buffer (f.asked addrs) transfer = (f.asked addrs).map f.device := by
    cases done with
    | inl done => rw [FPGA.buffer, if_pos done]
    | inr nothing =>
      rw [nothing, FPGA.buffer]
      split <;> rfl
  have goes : ¬ (f.asked addrs ≠ [] ∧ transfer.status < 0) := by
    intro failed
    cases done with
    | inl done => omega
    | inr nothing => exact failed.1 nothing
  unfold readRegisters
  rw [if_pos cached, if_neg goes, buffer]
  refine ⟨rfl, ?_, cached, rfl, ?_⟩
  · apply List.map_congr_left
    intro a member
    rw [refresh_cache]
    by_cases asks : a ∈ f.asked addrs
    · rw [if_pos asks]
      rfl
    · rw [if_neg asks]
      have kept : f.regsCache a ≠ none := by
        intro missing
        exact asks (List.mem_filter.mpr ⟨member, by simp [missing]⟩)
      obtain ⟨v, value⟩ := Option.ne_none_iff_exists'.mp kept
      rw [value, knows a v value fun doubtful => asks (fresh a member doubtful)]
      rfl
  · intro a v stored outside
    rw [refresh_cache] at stored
    by_cases asks : a ∈ f.asked addrs
    · rw [if_pos asks] at stored
      exact Option.some.inj stored
    · rw [if_neg asks] at stored
      exact knows a v stored fun member => outside ⟨member, asks⟩

theorem readRegisters_failed (cached : f.useCache) {transfer : Transfer}
    (asks : f.asked addrs ≠ []) (failed : transfer.status < 0) :
    f.readRegisters addrs transfer = (-1, [], f) := by
  rw [readRegisters, if_pos cached, if_pos ⟨asks, failed⟩]

end FPGA

end Soapy.Lime
