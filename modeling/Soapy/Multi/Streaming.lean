import Soapy.Multi.Devices

/-! # Streams over several devices

A stream of the object is a list of streams of the devices, and each call goes through the list
until a device fails. What the devices answer is arbitrary, so a call takes the answers in the order
in which the devices are asked.
-/

namespace Soapy.Multi

open Lib

/-- `SoapyMultiStreamData`, up to the stream. -/
structure StreamData where
  device : Nat
  channels : List Nat

def pushChannel (multiStreams : List StreamData) (localChannel device : Nat) : List StreamData :=
  match multiStreams.getLast? with
  | some back =>
    if back.device = device then
      multiStreams.dropLast ++ [⟨device, back.channels ++ [localChannel]⟩]
    else multiStreams ++ [⟨device, [localChannel]⟩]
  | none => [⟨device, [localChannel]⟩]

def streamsOf (s : SoapyMultiSDR) (direction : Int32) (channels : List Nat) :
    Except Stop (List StreamData) :=
  (if channels = [] then [0] else channels).foldlM (fun multiStreams channel =>
    match (s.chanMapOf direction)[channel]? with
    | some (localChannel, device) => .ok (pushChannel multiStreams localChannel device)
    | none => .error .out_of_range) []

/-- The loop that creates the streams, from the `i`-th on: its result, and which of them the devices
    have open when it ends. -/
def createStreams (answers : Nat → Except Stop Nat) :
    Nat → List StreamData → Except Stop (List (StreamData × Nat)) × List Nat
  | _, [] => (.ok [], [])
  | i, data :: rest =>
    match answers i with
    | .error e => (.error e, [])
    | .ok stream =>
      let (created, opened) := createStreams answers (i + 1) rest
      (created.map ((data, stream) :: ·), i :: opened)

def setupStream (s : SoapyMultiSDR) (answers : Nat → Except Stop Nat) (direction : Int32)
    (channels : List Nat) : Except Stop (List (StreamData × Nat)) × List Nat :=
  match streamsOf s direction channels with
  | .error e => (.error e, [])
  | .ok multiStreams => createStreams answers 0 multiStreams

/-- `activateStream`, and `deactivateStream` as well, from the `i`-th stream on: its result, and on
    which streams the devices did it. -/
def activateStream (answers : Nat → Int32) : Nat → List StreamData → Int32 × List Nat
  | _, [] => (0, [])
  | i, _ :: rest =>
    if answers i ≠ 0 then (answers i, [])
    else
      let (ret, activated) := activateStream answers (i + 1) rest
      (ret, i :: activated)

/-- What a device answers when it is asked for a buffer, and what it leaves in the variables. -/
structure Acquired where
  ret : Int32
  handle : UInt64
  flags : Int32
  timeNs : Int64
  buffs : List UInt64

structure Caller where
  handle : UInt64
  flags : Int32
  timeNs : Int64
  buffs : Nat → UInt64

/-- The addresses go to `buffs + offset`. -/
def Caller.put (c : Caller) (offset : Nat) (a : Acquired) : Caller where
  handle := a.handle
  flags := a.flags
  timeNs := a.timeNs
  buffs j := if offset ≤ j then (a.buffs[j - offset]?).getD (c.buffs j) else c.buffs j

/-- How a call ended: the devices that have an acquired buffer now, with its handle. -/
structure Acquisition where
  ret : Int32
  caller : Caller
  held : List (Nat × UInt64)

/-- The loop of `acquireReadBuffer` over the streams from the `i`-th on. A device sees the flags of
    the caller. -/
def acquireReadLoop (answers : Nat → Int32 → Acquired) (originalFlags : Int32) (i offset : Nat)
    (ret flagsOut : Int32) (timeNsOut : Int64) (c : Caller) : List StreamData → Acquisition
  | [] => ⟨ret, { c with flags := flagsOut, timeNs := timeNsOut }, []⟩
  | multiStream :: rest =>
    let a := answers i originalFlags
    let c := c.put offset a
    if a.ret ≤ 0 then ⟨a.ret, c, []⟩
    else
      let behind := acquireReadLoop answers originalFlags (i + 1)
        (offset + multiStream.channels.length) a.ret (if offset = 0 then a.flags else flagsOut)
        (if offset = 0 then a.timeNs else timeNsOut) c rest
      { behind with held := (i, a.handle) :: behind.held }

def acquireReadBuffer (answers : Nat → Int32 → Acquired) (c : Caller)
    (multiStreams : List StreamData) : Acquisition :=
  acquireReadLoop answers c.flags 0 0 0 0 0 c multiStreams

def releaseReadBuffer (multiStreams : List StreamData) (handle : UInt64) : List (Nat × UInt64) :=
  (List.range multiStreams.length).map (fun i => (i, handle))

/-- The loop of `acquireWriteBuffer`, which looks at `ret` but does not assign it. -/
def acquireWriteLoop (answers : Nat → Acquired) (ret : Int32) (i offset : Nat) (c : Caller) :
    List StreamData → Acquisition
  | [] => ⟨ret, c, []⟩
  | multiStream :: rest =>
    let a := answers i
    let c := { c.put offset a with flags := c.flags, timeNs := c.timeNs }
    let held := if 0 < a.ret then [(i, a.handle)] else []
    if ret ≤ 0 then ⟨ret, c, held⟩
    else
      let behind :=
        acquireWriteLoop answers ret (i + 1) (offset + multiStream.channels.length) c rest
      { behind with held := held ++ behind.held }

def acquireWriteBuffer (answers : Nat → Acquired) (c : Caller) (multiStreams : List StreamData) :
    Acquisition :=
  acquireWriteLoop answers 0 0 0 c multiStreams

def releaseWriteBuffer (answers : Nat → Int32 → Int32) (multiStreams : List StreamData)
    (handle : UInt64) (flags : Int32) : List (Nat × UInt64) × Int32 :=
  (releaseReadBuffer multiStreams handle, if multiStreams = [] then 0 else answers 0 flags)

def Balanced (own : Nat → Acquired) (multiStreams : List StreamData) (a : Acquisition) : Prop :=
  (0 < a.ret → (∀ i < multiStreams.length, 0 < (own i).ret) ∧
    releaseReadBuffer multiStreams a.caller.handle =
      (List.range multiStreams.length).map (fun i => (i, (own i).handle))) ∧
  (a.ret ≤ 0 → a.held = [])

/-- The positions from `i` on, of which there are `n`, up to one that is not good. -/
def reached (good : Nat → Prop) [DecidablePred good] : Nat → Nat → List Nat
  | _, 0 => []
  | i, n + 1 => if good i then i :: reached good (i + 1) n else []

section

variable {good : Nat → Prop} [DecidablePred good] {multiStreams : List StreamData} {i n j : Nat}

theorem mem_reached : j ∈ reached good i n ↔ i ≤ j ∧ j < i + n ∧ ∀ k, i ≤ k → k ≤ j → good k := by
  induction n generalizing i with
  | zero => simp only [reached, List.not_mem_nil, false_iff]; omega
  | succ n ih =>
    rw [reached]
    split
    · rename_i here
      rw [List.mem_cons, ih]
      constructor
      · rintro (rfl | ⟨above, below, all⟩)
        · exact ⟨Nat.le_refl _, by omega, fun k low high => Nat.le_antisymm low high ▸ here⟩
        · refine ⟨by omega, by omega, fun k low high => ?_⟩
          rcases Nat.eq_or_lt_of_le low with rfl | later
          · exact here
          · exact all k later high
      · rintro ⟨above, below, all⟩
        rcases Nat.eq_or_lt_of_le above with same | later
        · exact .inl same.symm
        · exact .inr ⟨later, by omega, fun k low high => all k (by omega) high⟩
    · rename_i bad
      simp only [List.not_mem_nil, false_iff]
      exact fun inside => bad (inside.2.2 i (Nat.le_refl _) inside.1)

theorem reached_nil : reached good i n = [] ↔ n = 0 ∨ ¬ good i := by
  cases n <;> simp [reached]

theorem createStreams_spec (answers : Nat → Except Stop Nat) (i : Nat)
    (multiStreams : List StreamData) :
    (createStreams answers i multiStreams).2 =
      reached (fun k => (answers k).isOk = true) i multiStreams.length ∧
    ((createStreams answers i multiStreams).1.isOk = true ↔
      ∀ k < multiStreams.length, (answers (i + k)).isOk = true) := by
  induction multiStreams generalizing i with
  | nil => exact ⟨rfl, fun _ _ none => absurd none (Nat.not_lt_zero _), fun _ => rfl⟩
  | cons data rest ih =>
    obtain ⟨opened, created⟩ := ih (i + 1)
    rw [createStreams]
    cases here : answers i with
    | error e =>
      have bad : (answers i).isOk = false := by rw [here]; rfl
      refine ⟨by simp [reached, bad], ?_, fun all => ?_⟩
      · exact fun ok => nomatch ok
      · have first := all 0 (Nat.succ_pos _)
        rw [Nat.add_zero, bad] at first
        cases first
    | ok stream =>
      have good : (answers i).isOk = true := by rw [here]; rfl
      have mapped : ∀ result : Except Stop (List (StreamData × Nat)),
          (result.map ((data, stream) :: ·)).isOk = result.isOk := fun result => by
        cases result <;> rfl
      refine ⟨by simp [reached, good, opened], ?_⟩
      dsimp only
      rw [mapped, created]
      constructor
      · intro all k inside
        cases k with
        | zero => exact good
        | succ k => rw [← Nat.add_assoc, Nat.add_right_comm]; exact all k (by simpa using inside)
      · intro all k inside
        rw [Nat.add_right_comm]
        exact all (k + 1) (Nat.succ_lt_succ inside)

theorem activateStream_spec (answers : Nat → Int32) (i : Nat) (multiStreams : List StreamData) :
    (activateStream answers i multiStreams).2 =
      reached (fun k => answers k = 0) i multiStreams.length ∧
    ((activateStream answers i multiStreams).1 = 0 ↔
      ∀ k < multiStreams.length, answers (i + k) = 0) := by
  induction multiStreams generalizing i with
  | nil => exact ⟨rfl, fun _ _ none => absurd none (Nat.not_lt_zero _), fun _ => rfl⟩
  | cons data rest ih =>
    obtain ⟨activated, ended⟩ := ih (i + 1)
    rw [activateStream]
    split
    · rename_i bad
      exact ⟨by simp [reached, bad], fun good => absurd good bad,
        fun all => absurd (all 0 (Nat.succ_pos _)) bad⟩
    · rename_i good
      rw [ne_eq, not_not] at good
      refine ⟨by simp [reached, good, activated], ended.trans ⟨fun all k inside => ?_, ?_⟩⟩
      · cases k with
        | zero => exact good
        | succ k => rw [← Nat.add_assoc, Nat.add_right_comm]; exact all k (by simpa using inside)
      · intro all k inside
        rw [Nat.add_right_comm]
        exact all (k + 1) (Nat.succ_lt_succ inside)

/-- The handle of the last device is what remains. -/
theorem acquireReadLoop_spec (answers : Nat → Int32 → Acquired) (f : Int32) {i offset : Nat}
    {ret flagsOut : Int32} {timeNsOut : Int64} {c : Caller} (multiStreams : List StreamData) :
    let a := acquireReadLoop answers f i offset ret flagsOut timeNsOut c multiStreams
    a.held = (reached (fun k => 0 < (answers k f).ret) i multiStreams.length).map
      (fun k => (k, (answers k f).handle)) ∧
    (0 < a.ret ↔ (∀ k < multiStreams.length, 0 < (answers (i + k) f).ret) ∧
      (multiStreams = [] → 0 < ret)) ∧
    (0 < a.ret → a.caller.handle =
      if multiStreams = [] then c.handle else (answers (i + (multiStreams.length - 1)) f).handle) := by
  induction multiStreams generalizing i offset ret flagsOut timeNsOut c with
  | nil => simp [acquireReadLoop, reached]
  | cons data rest ih =>
    dsimp only
    rw [acquireReadLoop]
    by_cases failed : (answers i f).ret ≤ 0
    · rw [if_pos failed]
      have bad := Int32.not_lt.mpr failed
      refine ⟨by simp [reached, bad], ⟨fun positive => absurd positive bad, fun all => ?_⟩,
        fun positive => absurd positive bad⟩
      exact absurd (all.1 0 (Nat.succ_pos _)) bad
    · rw [if_neg failed]
      have good := Int32.not_le.mp failed
      obtain ⟨held, ended, last⟩ := @ih (i + 1) (offset + data.channels.length)
        (answers i f).ret (if offset = 0 then (answers i f).flags else flagsOut)
        (if offset = 0 then (answers i f).timeNs else timeNsOut) (c.put offset (answers i f))
      refine ⟨by simp [reached, good, held], ended.trans ⟨fun all => ⟨fun k inside => ?_, nofun⟩,
        fun all => ⟨fun k inside => ?_, fun _ => good⟩⟩, fun positive => (last positive).trans ?_⟩
      · cases k with
        | zero => exact good
        | succ k =>
          rw [← Nat.add_assoc, Nat.add_right_comm]
          exact all.1 k (by simpa using inside)
      · rw [Nat.add_right_comm]
        exact all.1 (k + 1) (Nat.succ_lt_succ inside)
      · cases rest with
        | nil => rfl
        | cons next rest =>
          rw [if_neg (List.cons_ne_nil _ _), if_neg (List.cons_ne_nil _ _)]
          simp only [List.length_cons, Nat.add_sub_cancel]
          rw [Nat.add_assoc, Nat.add_comm 1]

theorem acquireWriteBuffer_eq (answers : Nat → Acquired) (c : Caller)
    (multiStreams : List StreamData) : (acquireWriteBuffer answers c multiStreams).ret = 0 ∧
      ((acquireWriteBuffer answers c multiStreams).held = [] ↔
        multiStreams = [] ∨ (answers 0).ret ≤ 0) := by
  rw [acquireWriteBuffer]
  cases multiStreams with
  | nil => exact ⟨rfl, fun _ => .inl rfl, fun _ => rfl⟩
  | cons data rest =>
    rw [acquireWriteLoop, if_pos (by decide)]
    refine ⟨rfl, ?_⟩
    by_cases positive : 0 < (answers 0).ret
    · simp [positive, Int32.not_le.mpr positive]
    · simp [positive, Int32.not_lt.mp positive]

end

/-- When a call on the list does what is promised: a read needs one handle for all devices, and its
    first device to fail when one fails, which a write and the set-up need too; the activation needs
    the streams before a failure to be active already. -/
theorem streams_balanced_iff (c : Caller) (multiStreams : List StreamData) :
    (∀ answers : Nat → Int32 → Acquired, Balanced (answers · c.flags) multiStreams (acquireReadBuffer answers c multiStreams) ↔
        ((∀ i < multiStreams.length, 0 < (answers i c.flags).ret) →
          ∀ i < multiStreams.length, (answers i c.flags).handle =
            (answers (multiStreams.length - 1) c.flags).handle) ∧
        ((∃ i < multiStreams.length, (answers i c.flags).ret ≤ 0) →
          (answers 0 c.flags).ret ≤ 0)) ∧
    (∀ answers : Nat → Acquired, Balanced answers multiStreams (acquireWriteBuffer answers c multiStreams) ↔
        multiStreams = [] ∨ (answers 0).ret ≤ 0) ∧
    (∀ (s : SoapyMultiSDR) (answers : Nat → Except Stop Nat) (direction : Int32)
        (channels : List Nat),
      ((setupStream s answers direction channels).1.isOk = false →
        (setupStream s answers direction channels).2 = []) ↔
        ∀ multiStreams, streamsOf s direction channels = .ok multiStreams →
          (∃ i < multiStreams.length, (answers i).isOk = false) → (answers 0).isOk = false) ∧
    ∀ (answers : Nat → Int32) (active : Nat → Prop),
      ((activateStream answers 0 multiStreams).1 ≠ 0 →
        ∀ i ∈ (activateStream answers 0 multiStreams).2, active i) ↔
        ∀ k < multiStreams.length, answers k ≠ 0 → (∀ j < k, answers j = 0) → ∀ j < k, active j := by
  refine ⟨fun answers => ?_, fun answers => ?_, fun s answers direction channels => ?_,
    fun answers active => ?_⟩
  · obtain ⟨held, ended, last⟩ := @acquireReadLoop_spec answers c.flags 0 0 0 0 0 c multiStreams
    simp only [Nat.zero_add] at ended last
    have same : ∀ h : UInt64, releaseReadBuffer multiStreams h =
        (List.range multiStreams.length).map (fun i => (i, (answers i c.flags).handle)) ↔
          ∀ i < multiStreams.length, (answers i c.flags).handle = h := by
      intro h
      simp [releaseReadBuffer, eq_comm]
    rw [Balanced, same]
    constructor
    · rintro ⟨full, empty⟩
      refine ⟨fun all i inside => ?_, fun ⟨i, inside, failed⟩ => ?_⟩
      · have some : multiStreams ≠ [] := List.ne_nil_of_length_pos (Nat.zero_lt_of_lt inside)
        have positive := ended.mpr ⟨all, fun none => absurd none some⟩
        rw [(full positive).2 i inside, acquireReadBuffer, last positive, if_neg some]
      · have stopped := empty (Int32.not_lt.mp fun positive =>
          absurd ((ended.mp positive).1 i inside) (Int32.not_lt.mpr failed))
        rw [acquireReadBuffer, held, List.map_eq_nil_iff, reached_nil] at stopped
        rcases stopped with none | bad
        · omega
        · exact Int32.not_lt.mp bad
    · rintro ⟨handles, first⟩
      refine ⟨fun positive => ?_, fun failed => ?_⟩
      · obtain ⟨all, some⟩ := ended.mp positive
        have some : multiStreams ≠ [] := fun none => absurd (some none) (by decide)
        refine ⟨all, fun i inside => ?_⟩
        rw [acquireReadBuffer, last positive, if_neg some]
        exact handles all i inside
      · rw [acquireReadBuffer, held, List.map_eq_nil_iff, reached_nil]
        by_cases none : multiStreams = []
        · exact .inl (by rw [none]; rfl)
        · refine .inr (Int32.not_lt.mpr (first ?_))
          by_contra all
          push Not at all
          exact absurd (ended.mpr ⟨fun i inside => Int32.not_le.mp (all i inside),
            fun empty => absurd empty none⟩) (Int32.not_lt.mpr failed)
  · obtain ⟨zero, held⟩ := acquireWriteBuffer_eq answers c multiStreams
    rw [Balanced, zero, held]
    exact ⟨fun balanced => balanced.2 (by decide),
      fun first => ⟨fun positive => absurd positive (by decide), fun _ => first⟩⟩
  · rw [setupStream]
    cases found : streamsOf s direction channels with
    | error e => exact ⟨fun _ _ none => (nomatch none), fun _ _ => rfl⟩
    | ok multiStreams =>
      obtain ⟨opened, created⟩ := createStreams_spec answers 0 multiStreams
      simp only [Nat.zero_add] at created
      dsimp only
      rw [opened, reached_nil, ← Bool.not_eq_true, created]
      constructor
      · rintro empty _ same ⟨i, inside, failed⟩
        obtain rfl := Except.ok.inj same
        have stopped := empty fun all => absurd (all i inside) (by rw [failed]; nofun)
        rcases stopped with none | bad
        · omega
        · simpa using bad
      · intro first failed
        push Not at failed
        obtain ⟨i, inside, bad⟩ := failed
        exact .inr (by simpa using first multiStreams rfl ⟨i, inside, by simpa using bad⟩)
  · obtain ⟨activated, ended⟩ := activateStream_spec answers 0 multiStreams
    simp only [Nat.zero_add] at ended
    rw [activated, ne_eq, ended]
    constructor
    · intro kept k inside failed good j before
      refine kept (fun all => failed (all k inside)) j (mem_reached.mpr ⟨Nat.zero_le _, by omega, ?_⟩)
      exact fun l _ below => good l (by omega)
    · intro kept failed j member
      obtain ⟨-, inside, good⟩ := mem_reached.mp member
      have some : ∃ k, k < multiStreams.length ∧ answers k ≠ 0 := by
        by_contra none
        push Not at none
        exact failed none
      -- the first device that fails lies behind every stream that was reached
      have first := Nat.find_spec some
      refine kept (Nat.find some) first.1 first.2 (fun l before => ?_) j ?_
      · by_contra bad
        exact Nat.find_min some before ⟨by omega, bad⟩
      · by_contra behind
        exact first.2 (good _ (Nat.zero_le _) (Nat.not_lt.mp behind))

/-- Two devices with handles of their own, the second one of which fails on occasion. -/
theorem streams_unbalanced :
    let streams : List StreamData := [⟨0, [0]⟩, ⟨1, [0]⟩]
    let own (i : Nat) : Acquired := ⟨1, if i = 0 then 5 else 6, 0, 0, []⟩
    let c : Caller := ⟨0, 0, 0, fun _ => 0⟩
    let both := acquireReadBuffer (fun i _ => own i) c streams
    let one := acquireReadBuffer (fun i _ => { own i with ret := if i = 0 then 1 else -1 }) c streams
    let write := acquireWriteBuffer own c streams
    both.ret = 1 ∧ releaseReadBuffer streams both.caller.handle = [(0, 6), (1, 6)] ∧
      one.ret = -1 ∧ one.held = [(0, 5)] ∧ write.ret = 0 ∧ write.held = [(0, 5)] ∧
      activateStream (fun i => if i = 0 then 0 else -1) 0 streams = (-1, [0]) := by
  decide

end Soapy.Multi
