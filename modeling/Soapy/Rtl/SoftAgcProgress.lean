import Soapy.Rtl.SoftAgc

/-! # The soft AGC does not stall

A signal reaches only a thread that waits. Where each one does, the worker is on its way whenever a
gain is to be set.
-/

namespace Soapy.Rtl.SoftAgc

open Lib Tuner

def SignalHeard (s : State) (event : Event) : Prop :=
  match event, s.stream with
  | .stream, .signal _ => s.worker ≠ .lock
  | _, _ => True

def OfThreads (_ : State) : Event → Prop
  | .block _ _ | .stream | .worker => True
  | .reactivate | .set_sample_rate => False

/-- The blocks are dropped until the gain is set, but the worker waits, and the threads take no step
to a signal any more. -/
def Stalled (tuner : TunerType) (s : State) : Prop :=
  s.agc.remainingDeadSps = INT_MAX ∧ s.worker = .waiting ∧
    ∀ s', Runs (Steps tuner) OfThreads s s' → ∀ rest, s'.stream ≠ .signal rest

/-- The gain is in the table, and was lowered once for every overload since it was the highest one,
down to the lowest. -/
def IndexRight (tuner : TunerType) (s : State) : Prop :=
  0 ≤ s.agc.gainIdx.toInt ∧ s.agc.gainIdx.toInt < (get_tuner_gains tuner).length ∧
    ∀ count, s.overloads = some count →
      s.agc.gainIdx.toInt = ((get_tuner_gains tuner).length - 1 - count : Nat)

def Stream.holds : Stream → Bool
  | .signal _ | .unlock _ => true
  | .idle | .lock _ | .finish _ => false

def Stream.signals : Stream → Bool
  | .lock _ | .signal _ => true
  | .idle | .unlock _ | .finish _ => false

def Worker.holds : Worker → Bool
  | .wait | .unlock => true
  | .lock | .waiting | .woken | .command => false

def Worker.underWay : Worker → Bool
  | .woken | .unlock | .command => true
  | .lock | .wait | .waiting => false

/-- While a gain is to be set, the signal is still to come or was heard. -/
structure Inv (s : State) : Prop where
  dead : s.agc.deadTimeSps ≠ INT_MAX
  stream_locks : s.mutex = some .stream ↔ s.stream.holds = true
  worker_locks : s.mutex = some .worker ↔ s.worker.holds = true
  pending : s.agc.remainingDeadSps = INT_MAX → s.agc.command_changeGain = true ∧
    (s.stream.signals || s.worker.underWay) = true

/-- What a call of `softagc` does to the command. -/
structure Measured (agc : Agc) (result : Result) : Prop where
  dead : agc.deadTimeSps ≠ INT_MAX → result.agc.deadTimeSps ≠ INT_MAX
  pending : result.agc.remainingDeadSps = INT_MAX →
    (result.agc.command_changeGain = true ∧ ∃ rest, result.next = .inr rest) ∨
      agc.remainingDeadSps = INT_MAX ∧ result.agc.command_changeGain = agc.command_changeGain

theorem countdown {remaining half : Int32} (inside : half ≤ remaining) (nonneg : 0 ≤ half)
    (running : remaining ≠ INT_MAX) : remaining - half ≠ INT_MAX := by
  have inside := Int32.le_iff_toInt_le.mp inside
  have nonneg : 0 ≤ half.toInt := Int32.le_iff_toInt_le.mp nonneg
  have high := remaining.toInt_lt
  have other : remaining.toInt ≠ 2147483647 := fun same => running (Int32.toInt_inj.mp same)
  intro past
  have value : (remaining - half).toInt = 2147483647 := congrArg Int32.toInt past
  rw [Int32.toInt_sub, Int.bmod_eq_of_le (by omega) (by omega)] at value
  omega

theorem half_nonneg {len : Int32} (nonneg : 0 ≤ len) : 0 ≤ len / 2 := by
  have nonneg : 0 ≤ len.toInt := Int32.le_iff_toInt_le.mp nonneg
  have high := len.toInt_lt
  apply Int32.le_iff_toInt_le.mpr
  rw [Int32.toInt_div]
  have two : (2 : Int32).toInt = 2 := rfl
  have zero : (0 : Int32).toInt = 0 := rfl
  rw [two, zero, Int.tdiv_eq_ediv_of_nonneg nonneg, Int.bmod_eq_of_le (by omega) (by omega)]
  omega

structure Kept (agc agc' : Agc) : Prop where
  dead : agc'.deadTimeSps = agc.deadTimeSps
  remaining : agc'.remainingDeadSps = INT_MAX → agc.remainingDeadSps = INT_MAX
  command : agc'.command_changeGain = agc.command_changeGain

theorem Kept.measured {agc : Agc} {result : Result} (kept : Kept agc result.agc) :
    Measured agc result :=
  ⟨fun other => kept.dead ▸ other, fun pending => .inr ⟨kept.remaining pending, kept.command⟩⟩

variable (agc : Agc)

theorem scanned_kept : Kept agc (scanned agc) := by
  rw [scanned_eq]
  exact ⟨rfl, id, rfl⟩

variable (gains : List Int32)

theorem judge_measured (counted : Bytes) (agc : Agc) :
    Measured agc (judge gains counted agc) := by
  rw [judge]
  split
  · split
    · exact ⟨id, fun _ => .inl ⟨rfl, _, rfl⟩⟩
    · exact Kept.measured ⟨rfl, id, rfl⟩
  · exact (scanned_kept agc).measured

theorem softagc_measured (times : Times) (agc : Agc) (block : Block) :
    Measured agc (softagc gains times agc block) := by
  rw [softagc]
  cases agc.agcState with
  | off => exact Kept.measured ⟨rfl, id, rfl⟩
  | init => exact Kept.measured ⟨rfl, id, rfl⟩
  | reset =>
    simp only [resetMeasurement]
    split
    · exact Kept.measured ⟨rfl, id, rfl⟩
    · split
      · exact Kept.measured ⟨rfl, id, rfl⟩
      · refine ⟨fun other => ?_, fun _ => .inl ⟨rfl, _, rfl⟩⟩
        simp only
        split
        · exact times.dead_ne
        · exact other
  | on | reset_cont =>
    simp only [measure]
    split
    · exact Kept.measured ⟨rfl, id, rfl⟩
    · rename_i running
      split
      · rename_i dead
        have left := countdown dead.2 (half_nonneg block.len_nonneg) running
        exact Kept.measured ⟨rfl, fun pending => absurd pending left, rfl⟩
      · have zero : (0 : Int32) ≠ INT_MAX := by decide
        split
        · exact Kept.measured ⟨rfl, fun pending => absurd pending zero, rfl⟩
        · have judged := judge_measured gains (liveBytes agc block) (countBlock agc block)
          exact ⟨judged.dead, fun pending => (judged.pending pending).imp_right fun before =>
            absurd before.1 zero⟩

theorem inv_start (mode : UInt32) : Inv (start mode) := by
  have zero : (0 : Int32) ≠ INT_MAX := by decide
  exact ⟨zero, iff_of_false nofun nofun, iff_of_false nofun nofun, fun pending => absurd pending zero⟩

variable {tuner : TunerType} {s s' : State}

theorem inv_receive (inv : Inv s) (idle : s.stream = .idle) (times : Times) (block : Block) :
    Inv (s.receive tuner times block) := by
  have measured := softagc_measured (get_tuner_gains tuner) times s.agc block
  constructor
  · exact measured.dead inv.dead
  · have free := inv.stream_locks
    rw [idle] at free
    simp only [State.receive]
    split
    · exact free
    · exact free
  · exact inv.worker_locks
  · intro pending
    rcases measured.pending pending with ⟨command, rest, next⟩ | ⟨before, command⟩
    · refine ⟨command, ?_⟩
      simp only [State.receive, next]
      rfl
    · obtain ⟨change, way⟩ := inv.pending before
      rw [idle] at way
      have underWay : s.worker.underWay = true := way
      refine ⟨command.trans change, ?_⟩
      change (_ || s.worker.underWay) = true
      rw [underWay, Bool.or_true]

theorem inv_stream (inv : Inv s) (heard : SignalHeard s .stream) (taken : streamStep s = some s') :
    Inv s' := by
  obtain ⟨dead, stream_locks, worker_locks, pending⟩ := inv
  cases s with
  | mk agc mutex stream worker counted overloads =>
    cases stream with
    | idle => cases taken
    | lock rest =>
      simp only [streamStep] at taken
      split at taken
      · rename_i free
        cases taken
        cases free
        have open_worker : ¬ worker.holds = true := fun holds => nomatch worker_locks.mpr holds
        exact ⟨dead, iff_of_true rfl rfl, iff_of_false nofun open_worker, pending⟩
      · cases taken
    | signal rest =>
      have ready : worker ≠ .lock := heard
      have mine : mutex = some .stream := stream_locks.mpr rfl
      subst mine
      cases taken
      cases worker with
      | lock => exact absurd rfl ready
      | wait | unlock => exact absurd (worker_locks.mpr rfl) nofun
      | waiting | woken | command =>
        exact ⟨dead, stream_locks, worker_locks, fun endless => ⟨(pending endless).1, rfl⟩⟩
    | unlock rest =>
      have mine : mutex = some .stream := stream_locks.mpr rfl
      subst mine
      cases taken
      have open_worker : ¬ worker.holds = true := fun holds => nomatch worker_locks.mpr holds
      exact ⟨dead, iff_of_false nofun nofun, iff_of_false nofun open_worker, pending⟩
    | finish rest =>
      cases taken
      cases rest with
      | reset => exact ⟨dead, stream_locks, worker_locks, pending⟩
      | overload => exact ⟨dead, stream_locks, worker_locks, pending⟩

theorem command_done {agc : Agc} (dead : agc.deadTimeSps ≠ INT_MAX)
    (pending : agc.remainingDeadSps = INT_MAX → agc.command_changeGain = true) :
    agc.command.deadTimeSps ≠ INT_MAX ∧ agc.command.remainingDeadSps ≠ INT_MAX := by
  rw [Agc.command]
  split
  · exact ⟨dead, dead⟩
  · rename_i none
    exact ⟨dead, fun endless => none (pending endless)⟩

theorem inv_worker (inv : Inv s) (taken : workerStep s = some s') : Inv s' := by
  obtain ⟨dead, stream_locks, worker_locks, pending⟩ := inv
  cases s with
  | mk agc mutex stream worker counted overloads =>
    cases worker with
    | lock =>
      simp only [workerStep] at taken
      split at taken
      · rename_i free
        cases taken
        cases free
        have open_stream : ¬ stream.holds = true := fun holds => nomatch stream_locks.mpr holds
        exact ⟨dead, iff_of_false nofun open_stream, iff_of_true rfl rfl, pending⟩
      · cases taken
    | wait =>
      have mine : mutex = some .worker := worker_locks.mpr rfl
      subst mine
      cases taken
      have open_stream : ¬ stream.holds = true := fun holds => nomatch stream_locks.mpr holds
      exact ⟨dead, iff_of_false nofun open_stream, iff_of_false nofun nofun, pending⟩
    | waiting => cases taken
    | woken =>
      simp only [workerStep] at taken
      split at taken
      · rename_i free
        cases taken
        cases free
        have open_stream : ¬ stream.holds = true := fun holds => nomatch stream_locks.mpr holds
        exact ⟨dead, iff_of_false nofun open_stream, iff_of_true rfl rfl, pending⟩
      · cases taken
    | unlock =>
      have mine : mutex = some .worker := worker_locks.mpr rfl
      subst mine
      cases taken
      have open_stream : ¬ stream.holds = true := fun holds => nomatch stream_locks.mpr holds
      exact ⟨dead, iff_of_false nofun open_stream, iff_of_false nofun nofun, pending⟩
    | command =>
      cases taken
      obtain ⟨dead, done⟩ := command_done dead fun endless => (pending endless).1
      exact ⟨dead, stream_locks, worker_locks, fun endless => absurd endless done⟩

theorem Kept.inv {agc : Agc} (kept : Kept s.agc agc) (inv : Inv s) : Inv { s with agc := agc } := by
  refine ⟨fun endless => inv.dead (kept.dead ▸ endless), inv.stream_locks, inv.worker_locks, ?_⟩
  intro endless
  obtain ⟨change, way⟩ := inv.pending (kept.remaining endless)
  exact ⟨kept.command.trans change, way⟩

theorem reactivate_kept (newState : SoftState) :
    Kept agc (reactivate_softagc agc newState) := by
  rw [reactivate_softagc]
  split
  · exact ⟨rfl, id, rfl⟩
  · exact ⟨rfl, id, rfl⟩

variable {event : Event}

theorem inv_step (inv : Inv s) (heard : SignalHeard s event)
    (taken : Steps tuner s event s') : Inv s' := by
  cases event with
  | block times block =>
    simp only [Steps, step] at taken
    split at taken
    · rename_i idle
      cases taken
      exact inv_receive inv idle times block
    · cases taken
  | stream => exact inv_stream inv heard taken
  | worker => exact inv_worker inv taken
  | reactivate =>
    cases taken
    exact (reactivate_kept s.agc .reset).inv inv
  | set_sample_rate =>
    cases taken
    obtain ⟨dead, stream_locks, worker_locks, pending⟩ := inv
    have kept := reactivate_kept s.agc .reset
    simp only [Agc.rateChanged]
    split
    · have zero : (0 : Int32) ≠ INT_MAX := by decide
      refine ⟨zero, stream_locks, worker_locks, ?_⟩
      intro endless
      obtain ⟨change, way⟩ := pending (kept.remaining endless)
      exact ⟨kept.command.trans change, way⟩
    · exact ⟨dead, stream_locks, worker_locks, pending⟩

theorem inv_run {mode : UInt32} (run : Runs (Steps tuner) SignalHeard (start mode) s) : Inv s :=
  run.keeps (fun _ _ _ inv heard taken => inv_step inv heard taken) (inv_start mode)

theorem not_stalled (inv : Inv s) : ¬ Stalled tuner s := by
  intro ⟨endless, waits, silent⟩
  obtain ⟨_, way⟩ := inv.pending endless
  rw [waits, Worker.underWay, Bool.or_false] at way
  cases stream : s.stream with
  | signal rest => exact silent s Runs.refl rest stream
  | lock rest =>
    have free : s.mutex = none := by
      cases owner : s.mutex with
      | none => rfl
      | some thread =>
        cases thread with
        | stream =>
          have holds := inv.stream_locks.mp owner
          rw [stream] at holds
          cases holds
        | worker =>
          have holds := inv.worker_locks.mp owner
          rw [waits] at holds
          cases holds
    have next : Steps tuner s .stream { s with mutex := some .stream, stream := .signal rest } := by
      simp only [Steps, step, streamStep, stream]
      exact if_pos free
    exact silent _ (Runs.refl.tail next trivial) rest rfl
  | idle | unlock rest | finish rest =>
    rw [stream] at way
    cases way

theorem gains_count (tuner : TunerType) :
    0 < (get_tuner_gains tuner).length ∧ (get_tuner_gains tuner).length < 30 := by
  cases tuner <;> decide

/-- Before the first measurement nothing is lowered. -/
structure Index (tuner : TunerType) (s : State) : Prop where
  lowered : ∀ count, s.overloads = some count →
    s.agc.gainIdx.toInt = ((get_tuner_gains tuner).length - 1 - count : Nat)
  before : s.overloads = none → s.agc.gainIdx = 0 ∧ s.stream = .idle ∧
    s.agc.agcState ≠ .on ∧ s.agc.agcState ≠ .reset_cont

theorem Index.right (index : Index tuner s) : IndexRight tuner s := by
  have few := gains_count tuner
  cases overloads : s.overloads with
  | none =>
    rw [IndexRight, (index.before overloads).1, overloads]
    have zero : (0 : Int32).toInt = 0 := rfl
    rw [zero]
    exact ⟨Int.le_refl 0, by omega, nofun⟩
  | some count =>
    have lowered := index.lowered count overloads
    exact ⟨by omega, by omega, index.lowered⟩

/-- The three ends of a measurement: nothing is lowered, the gain is lowered by one, or it is the
lowest one already. -/
def Lowers (agc : Agc) (result : Result) : Prop :=
  (result.overload = false ∧ result.agc.gainIdx = agc.gainIdx ∧ ∃ keep, result.next = .inl keep) ∨
  (result.overload = true ∧ 0 < agc.gainIdx ∧ result.agc.gainIdx = agc.gainIdx - 1 ∧
    result.next = .inr .overload) ∨
  (result.overload = true ∧ ¬ 0 < agc.gainIdx ∧ result.agc.gainIdx = agc.gainIdx ∧
    ∃ keep, result.next = .inl keep)

theorem judge_lowers (counted : Bytes) (agc : Agc) :
    Lowers agc (judge gains counted agc) := by
  rw [judge]
  split
  · split
    · rename_i positive
      exact .inr (.inl ⟨rfl, positive, rfl, rfl⟩)
    · rename_i lowest
      exact .inr (.inr ⟨rfl, lowest, rfl, _, rfl⟩)
  · rw [scanned_eq]
    exact .inl ⟨rfl, rfl, _, rfl⟩

theorem measure_lowers (agc : Agc) (block : Block) :
    Lowers agc (measure gains agc block) := by
  rw [measure]
  split
  · exact .inl ⟨rfl, rfl, _, rfl⟩
  · split
    · exact .inl ⟨rfl, rfl, _, rfl⟩
    · split
      · exact .inl ⟨rfl, rfl, _, rfl⟩
      · exact judge_lowers gains (liveBytes agc block) (countBlock agc block)

theorem pred_toInt {gainIdx : Int32} (positive : 0 < gainIdx) :
    0 < gainIdx.toInt ∧ (gainIdx - 1).toInt = gainIdx.toInt - 1 := by
  have positive : 0 < gainIdx.toInt := Int32.lt_iff_toInt_lt.mp positive
  have high := gainIdx.toInt_lt
  have one : (1 : Int32).toInt = 1 := rfl
  rw [Int32.toInt_sub, one, Int.bmod_eq_of_le (by omega) (by omega)]
  exact ⟨positive, rfl⟩

theorem index_measured (index : Index tuner s) {times : Times} {block : Block}
    (measured : softagc (get_tuner_gains tuner) times s.agc block =
      measure (get_tuner_gains tuner) s.agc block)
    (running : s.overloads ≠ none) : Index tuner (s.receive tuner times block) := by
  obtain ⟨count, overloads⟩ := Option.ne_none_iff_exists'.mp running
  have lowered := index.lowered count overloads
  have few := gains_count tuner
  rcases measure_lowers (get_tuner_gains tuner) s.agc block with
    ⟨quiet, same, keep, next⟩ | ⟨loud, positive, less, next⟩ | ⟨loud, lowest, same, keep, next⟩
  · constructor
    · intro count' after
      simp only [State.receive, measured, next, quiet, Bool.false_eq_true, if_false] at after ⊢
      rw [same]
      exact index.lowered count' after
    · intro none
      simp only [State.receive, measured, next, quiet, Bool.false_eq_true, if_false] at none
      exact absurd none running
  · obtain ⟨positive, value⟩ := pred_toInt positive
    constructor
    · intro count' after
      simp only [State.receive, measured, next, loud, if_true, overloads, Option.map_some,
        Option.some.injEq] at after ⊢
      subst after
      rw [less, value]
      omega
    · intro none
      simp only [State.receive, measured, next, loud, if_true, overloads, Option.map_some,
        reduceCtorEq] at none
  · have lowest : ¬ 0 < s.agc.gainIdx.toInt := fun positive => lowest (Int32.lt_iff_toInt_lt.mpr positive)
    constructor
    · intro count' after
      simp only [State.receive, measured, next, loud, if_true, overloads, Option.map_some,
        Option.some.injEq] at after ⊢
      subst after
      rw [same]
      omega
    · intro none
      simp only [State.receive, measured, next, loud, if_true, overloads, Option.map_some,
        reduceCtorEq] at none

theorem index_returned (index : Index tuner s) {times : Times} {block : Block} (agc : Agc)
    (keepBlock : Bool) (call : softagc (get_tuner_gains tuner) times s.agc block =
      returned agc keepBlock) (same : agc.gainIdx = s.agc.gainIdx)
    (other : agc.agcState ≠ .on ∧ agc.agcState ≠ .reset_cont) :
    Index tuner (s.receive tuner times block) := by
  constructor
  · intro count after
    simp only [State.receive, call, returned, Bool.false_eq_true, if_false] at after ⊢
    rw [same]
    exact index.lowered count after
  · intro none
    simp only [State.receive, call, returned, Bool.false_eq_true, if_false] at none ⊢
    exact ⟨same.trans (index.before none).1, trivial, other⟩

theorem index_highest (tuner : TunerType) (s : State) (agc : Agc)
    (highest : agc.gainIdx = Int32.ofNat ((get_tuner_gains tuner).length - 1)) :
    Index tuner { s with agc, stream := .lock .reset, counted := [], overloads := some 0 } := by
  have few := gains_count tuner
  constructor
  · intro count after
    cases after
    simp only [highest]
    rw [Int32.toInt_ofNat_of_lt (by omega)]
    omega
  · nofun

theorem index_receive (index : Index tuner s) (times : Times) (block : Block) :
    Index tuner (s.receive tuner times block) := by
  have few := gains_count tuner
  cases state : s.agc.agcState with
  | off =>
    refine index_returned index s.agc true ?_ rfl ?_
    · rw [softagc, state]
    · rw [state]
      exact ⟨nofun, nofun⟩
  | init =>
    refine index_returned index { s.agc with agcState := .reset } false ?_ rfl
      ⟨nofun, nofun⟩
    rw [softagc, state]
  | reset =>
    by_cases single : (get_tuner_gains tuner).length = 1
    · refine index_returned index { s.agc with softAgcMode := SOFTAGC_OFF, agcState := .off }
        true ?_ rfl ⟨nofun, nofun⟩
      rw [softagc, state]
      simp only [resetMeasurement]
      rw [if_neg (by omega), if_pos single]
    · have call : softagc (get_tuner_gains tuner) times s.agc block =
          resetMeasurement (get_tuner_gains tuner) times s.agc := by
        rw [softagc, state]
      rw [State.receive, call, resetMeasurement, if_neg (by omega), if_neg single]
      exact index_highest tuner s _ rfl
  | on =>
    apply index_measured index
    · rw [softagc, state]
    · exact fun none => (index.before none).2.2.1 state
  | reset_cont =>
    apply index_measured index
    · rw [softagc, state]
    · exact fun none => (index.before none).2.2.2 state

theorem index_start (tuner : TunerType) (mode : UInt32) : Index tuner (start mode) := by
  refine ⟨nofun, fun _ => ⟨rfl, rfl, ?_⟩⟩
  simp only [start]
  split
  · exact ⟨nofun, nofun⟩
  · exact ⟨nofun, nofun⟩

theorem index_stream (index : Index tuner s) (taken : streamStep s = some s') : Index tuner s' := by
  have busy : s.overloads ≠ none := by
    intro none
    rw [streamStep, (index.before none).2.1] at taken
    cases taken
  have same : s'.overloads = s.overloads ∧ s'.agc.gainIdx = s.agc.gainIdx := by
    rw [streamStep] at taken
    split at taken
    · cases taken
    · split at taken
      · cases taken
        exact ⟨rfl, rfl⟩
      · cases taken
    · cases taken
      exact ⟨rfl, rfl⟩
    · cases taken
      exact ⟨rfl, rfl⟩
    · rename_i rest _
      cases taken
      cases rest with
      | reset => exact ⟨rfl, rfl⟩
      | overload => exact ⟨rfl, rfl⟩
  constructor
  · intro count after
    rw [same.2]
    exact index.lowered count (same.1 ▸ after)
  · exact fun none => absurd (same.1 ▸ none) busy

theorem Index.set (index : Index tuner s) {agc : Agc} (same : agc.gainIdx = s.agc.gainIdx)
    (state : agc.agcState = s.agc.agcState ∨ agc.agcState = .reset) :
    Index tuner { s with agc := agc } := by
  constructor
  · intro count after
    rw [same]
    exact index.lowered count after
  · intro none
    obtain ⟨zero, idle, other⟩ := index.before none
    refine ⟨same.trans zero, idle, ?_⟩
    cases state with
    | inl kept =>
      rw [kept]
      exact other
    | inr reset =>
      rw [reset]
      exact ⟨nofun, nofun⟩

theorem Agc.command_keeps :
    agc.command.gainIdx = agc.gainIdx ∧ agc.command.agcState = agc.agcState := by
  rw [Agc.command]
  split
  · exact ⟨rfl, rfl⟩
  · exact ⟨rfl, rfl⟩

theorem index_worker (index : Index tuner s) (taken : workerStep s = some s') : Index tuner s' := by
  rw [workerStep] at taken
  split at taken
  · split at taken
    · cases taken
      exact ⟨index.lowered, index.before⟩
    · cases taken
  · cases taken
    exact ⟨index.lowered, index.before⟩
  · cases taken
  · split at taken
    · cases taken
      exact ⟨index.lowered, index.before⟩
    · cases taken
  · cases taken
    exact ⟨index.lowered, index.before⟩
  · cases taken
    obtain ⟨same, state⟩ := s.agc.command_keeps
    have set := index.set same (.inl state)
    exact ⟨set.lowered, set.before⟩

theorem reactivate_keeps : (reactivate_softagc agc .reset).gainIdx = agc.gainIdx ∧
    ((reactivate_softagc agc .reset).agcState = agc.agcState ∨
      (reactivate_softagc agc .reset).agcState = .reset) := by
  rw [reactivate_softagc]
  split
  · exact ⟨rfl, .inr rfl⟩
  · exact ⟨rfl, .inl rfl⟩

theorem Agc.rateChanged_keeps : agc.rateChanged.gainIdx = agc.gainIdx ∧
    (agc.rateChanged.agcState = agc.agcState ∨ agc.rateChanged.agcState = .reset) := by
  rw [Agc.rateChanged]
  split
  · exact reactivate_keeps agc
  · exact ⟨rfl, .inl rfl⟩

theorem index_step (index : Index tuner s) (taken : Steps tuner s event s') :
    Index tuner s' := by
  cases event with
  | block times block =>
    simp only [Steps, step] at taken
    split at taken
    · cases taken
      exact index_receive index times block
    · cases taken
  | stream => exact index_stream index taken
  | worker => exact index_worker index taken
  | reactivate =>
    cases taken
    obtain ⟨same, state⟩ := reactivate_keeps s.agc
    exact index.set same state
  | set_sample_rate =>
    cases taken
    obtain ⟨same, state⟩ := s.agc.rateChanged_keeps
    exact index.set same state

theorem index_run {mode : UInt32} {Allowed : State → Event → Prop}
    (run : Runs (Steps tuner) Allowed (start mode) s) : Index tuner s :=
  run.keeps (fun _ _ _ index _ taken => index_step index taken) (index_start tuner mode)

/-- Where no signal comes while the worker is on its way to its wait, the soft AGC does not stall. -/
theorem progresses {mode : UInt32} (run : Runs (Steps tuner) SignalHeard (start mode) s) :
    ¬ Stalled tuner s ∧ IndexRight tuner s :=
  ⟨not_stalled (inv_run run), (index_run run).right⟩

/-- Two samples without an amplitude. -/
def silence : Block := ⟨fun _ => 127, 4, by decide⟩

def threeSamples : Times := ⟨3, 1, by decide⟩

theorem progresses_heard : ∃ s, Runs (Steps .r820t) SignalHeard (start SOFTAGC_ON_CHANGE) s ∧
    s.overloads = some 0 ∧ ¬ Stalled .r820t s ∧ IndexRight .r820t s := by
  have run : Runs (Steps .r820t) SignalHeard (start SOFTAGC_ON_CHANGE) _ :=
    .head (a := .worker) rfl trivial <| .head (a := .worker) rfl trivial <|
    .head (a := .block threeSamples silence) rfl trivial <|
    .head (a := .block threeSamples silence) rfl trivial <|
    .head (a := .stream) rfl trivial <| .head (a := .stream) rfl nofun <| .refl
  exact ⟨_, run, rfl, progresses run⟩

/-- The threads have nothing left to do. -/
structure Lost (s : State) : Prop where
  endless : s.agc.remainingDeadSps = INT_MAX
  waits : s.worker = .waiting
  idle : s.stream = .idle
  state : s.agc.agcState = .reset_cont

theorem lost_step (lost : Lost s) (mine : OfThreads s event)
    (taken : Steps tuner s event s') : Lost s' := by
  cases event with
  | block times block =>
    have call : softagc (get_tuner_gains tuner) times s.agc block = returned s.agc false := by
      rw [softagc, lost.state, measure, if_pos lost.endless]
    simp only [Steps, step, lost.idle, Option.some.injEq] at taken
    subst taken
    rw [State.receive, call]
    exact ⟨lost.endless, lost.waits, rfl, lost.state⟩
  | stream =>
    rw [Steps, step, streamStep, lost.idle] at taken
    cases taken
  | worker =>
    rw [Steps, step, workerStep, lost.waits] at taken
    cases taken
  | reactivate | set_sample_rate => cases mine

theorem Lost.stalled (lost : Lost s) : Stalled tuner s := by
  refine ⟨lost.endless, lost.waits, ?_⟩
  intro s' run rest signal
  have still := run.keeps (fun _ _ _ lost mine taken => lost_step lost mine taken) lost
  rw [still.idle] at signal
  cases signal

/-- The first signal comes before the worker has the lock for the first time. -/
theorem stalls : ¬ ∀ (tuner : TunerType) (mode : UInt32) (s : State),
    Runs (Steps tuner) (fun _ _ => True) (start mode) s →
      ¬ Stalled tuner s ∧ IndexRight tuner s := by
  intro never
  have run : Runs (Steps .r820t) (fun _ _ => True) (start SOFTAGC_ON_CHANGE) _ :=
    .head (a := .block threeSamples silence) rfl trivial <|
    .head (a := .block threeSamples silence) rfl trivial <|
    .head (a := .stream) rfl trivial <| .head (a := .stream) rfl trivial <|
    .head (a := .stream) rfl trivial <| .head (a := .stream) rfl trivial <|
    .head (a := .worker) rfl trivial <| .head (a := .worker) rfl trivial <| .refl
  exact (never .r820t SOFTAGC_ON_CHANGE _ run).1 (Lost.stalled ⟨rfl, rfl, rfl, rfl⟩)

end Soapy.Rtl.SoftAgc
