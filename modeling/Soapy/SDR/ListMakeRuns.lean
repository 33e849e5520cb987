import Soapy.SDR.ListMake

/-! # Runs of make for lists

In every run the counters differ from those before the call by what the tasks have added to them.
The tasks of the collected devices are matched by those that unmake them, so that behind a failure
the devices of the later entries remain.
-/

namespace Soapy.SDR

open Lib
open Soapy.Remote (Kwargs Exn)

namespace Task

def total (d : Device) (tasks : List Task) : Int := (tasks.map (added d)).sum

/-- The task is one of `make`. -/
def IsMake (task : Task) : Prop := ∃ args, task.request = .make args

variable {d : Device} {tasks : List Task}

theorem total_cons (task : Task) : total d (task :: tasks) = task.added d + total d tasks := by
  rw [total, List.map_cons, List.sum_cons]
  rfl

theorem total_append (tasks' : List Task) :
    total d (tasks ++ tasks') = total d tasks + total d tasks' := by
  rw [total, List.map_append, List.sum_append]
  rfl

theorem total_split (n : Nat) :
    total d tasks = total d (tasks.take n) + total d (tasks.drop n) := by
  have whole := @total_append d (tasks.take n) (tasks.drop n)
  rw [List.take_append_drop] at whole
  exact whole

theorem total_set {k : Nat} {task : Task} (here : tasks[k]? = some task) (task' : Task) :
    total d (tasks.set k task') + task.added d = total d tasks + task'.added d := by
  induction tasks generalizing k with
  | nil => cases here
  | cons first rest ih =>
    cases k with
    | zero =>
      cases here
      rw [List.set_cons_zero, total_cons, total_cons]
      omega
    | succ k =>
      have later := ih here
      rw [List.set_cons_succ, total_cons, total_cons]
      omega

theorem added_make_none {args : Kwargs} {future : Future}
    (nothing : ∀ d, future ≠ .finished (.ok (some d))) : added d ⟨.make args, future⟩ = 0 := by
  cases future with
  | waiting | running => rfl
  | finished result =>
    cases result with
    | error e => rfl
    | ok given =>
      cases given with
      | none => rfl
      | some d' => exact absurd rfl (nothing d')

theorem added_make {task : Task} (make : task.IsMake) : 0 ≤ task.added d := by
  obtain ⟨request, future⟩ := task
  obtain ⟨args, rfl⟩ := make
  cases Classical.em (∃ d', future = .finished (.ok (some d'))) with
  | inl gave =>
    obtain ⟨d', rfl⟩ := gave
    change (0 : Int) ≤ if d' = d then 1 else 0
    split
    · exact Int.one_nonneg
    · exact Int.le_refl 0
  | inr none =>
    rw [added_make_none (fun d' gave => none ⟨d', gave⟩)]

section

variable (makes : ∀ task ∈ tasks, task.IsMake)
include makes

theorem total_makes : 0 ≤ total d tasks := by
  induction tasks with
  | nil => exact Int.le_refl 0
  | cons task rest ih =>
    have here : 0 ≤ task.added d := added_make (makes task List.mem_cons_self)
    have later := ih (fun task' member => makes task' (List.mem_cons_of_mem _ member))
    rw [total_cons]
    omega

theorem total_collected {devices : List Device}
    (gave : tasks.map Task.future = devices.map (fun d => .finished (.ok (some d)))) :
    total d tasks = devices.count d := by
  induction tasks generalizing devices with
  | nil =>
    cases devices with
    | nil => rfl
    | cons => cases gave
  | cons task rest ih =>
    cases devices with
    | nil => cases gave
    | cons d' devices =>
      rw [List.map_cons, List.map_cons, List.cons.injEq] at gave
      obtain ⟨request, future⟩ := task
      obtain ⟨args, made⟩ := makes ⟨request, future⟩ List.mem_cons_self
      obtain ⟨rfl, later⟩ := gave
      change request = .make args at made
      subst made
      have others := ih (fun task' member => makes task' (List.mem_cons_of_mem _ member)) later
      rw [total_cons, others, List.count_cons]
      simp only [added, beq_iff_eq]
      split <;> simp [Int.add_comm]

theorem added_le_total {task : Task} (member : task ∈ tasks) : task.added d ≤ total d tasks := by
  induction tasks with
  | nil => cases member
  | cons first rest ih =>
    have later : ∀ task ∈ rest, task.IsMake := fun task' member' =>
      makes task' (List.mem_cons_of_mem _ member')
    rw [total_cons]
    cases member with
    | head =>
      have others : 0 ≤ total d rest := total_makes later
      omega
    | tail _ member =>
      have here : 0 ≤ first.added d := added_make (makes first List.mem_cons_self)
      have others := ih later member
      omega

theorem total_zero_iff :
    (∀ d, total d tasks = 0) ↔ ∀ task ∈ tasks, ∀ d, task.future ≠ .finished (.ok (some d)) := by
  constructor
  · intro zero task member d gave
    have some := @added_le_total d tasks makes task member
    obtain ⟨request, future⟩ := task
    obtain ⟨args, rfl⟩ := makes _ member
    change future = .finished (.ok (.some d)) at gave
    subst gave
    have one : added d ⟨.make args, .finished (.ok (.some d))⟩ = 1 := if_pos rfl
    rw [one, zero d] at some
    exact absurd some (by decide)
  · intro nothing d
    apply List.sum_eq_zero
    intro number member
    obtain ⟨task, member', rfl⟩ := List.mem_map.mp member
    have gave := nothing task member'
    obtain ⟨request, future⟩ := task
    obtain ⟨args, rfl⟩ := makes _ member'
    exact added_make_none gave

end

theorem added_unmake (d' : Device) (future : Future) :
    (if d' = d then -1 else 0 : Int) ≤ added d ⟨.unmake d', future⟩ := by
  have least : (if d' = d then -1 else 0 : Int) ≤ 0 := by
    split
    · exact Int.neg_nonpos_of_nonneg Int.one_nonneg
    · exact Int.le_refl 0
  cases future with
  | waiting => exact least
  | running => exact Int.le_refl _
  | finished result =>
    cases result with
    | error e => exact least
    | ok made => exact Int.le_refl _

theorem neg_count_cons (d' : Device) (devices : List Device) :
    (-(d' :: devices).count d : Int) = (if d' = d then -1 else 0) + -devices.count d := by
  rw [List.count_cons]
  simp only [beq_iff_eq]
  split
  · push_cast
    omega
  · push_cast
    omega

theorem total_unmakes {devices : List Device}
    (unmakes : tasks.map Task.request = devices.map .unmake) :
    (-devices.count d : Int) ≤ total d tasks := by
  induction tasks generalizing devices with
  | nil =>
    cases devices with
    | nil => exact Int.le_refl 0
    | cons => cases unmakes
  | cons task rest ih =>
    cases devices with
    | nil => cases unmakes
    | cons d' devices =>
      rw [List.map_cons, List.map_cons, List.cons.injEq] at unmakes
      obtain ⟨request, future⟩ := task
      obtain ⟨rfl, later⟩ := unmakes
      have here := @added_unmake d d' future
      rw [total_cons, neg_count_cons]
      have others := ih later
      omega

theorem map_request_set {k : Nat} {task task' : Task} (here : tasks[k]? = some task)
    (same : task'.request = task.request) :
    (tasks.set k task').map Task.request = tasks.map Task.request := by
  apply List.ext_getElem?
  intro i
  rw [List.getElem?_map, List.getElem?_map]
  cases decEq k i with
  | isTrue this =>
    subst this
    have inside := (List.getElem?_eq_some_iff.mp here).1
    rw [List.getElem?_set_self inside, here, Option.map_some, Option.map_some, same]
  | isFalse other => rw [List.getElem?_set_ne other]

theorem total_waiting {devices : List Device} {k : Nat}
    (unmakes : tasks.map Task.request = devices.map .unmake)
    (here : tasks[k]? = some ⟨.unmake d, .waiting⟩) :
    (-devices.count d : Int) < total d tasks := by
  -- the same tasks with this one begun
  have begun : (tasks.set k ⟨.unmake d, .running⟩).map Task.request = devices.map .unmake := by
    rw [← unmakes]
    exact map_request_set here rfl
  have least := @total_unmakes d _ devices begun
  have more := total_set (d := d) here ⟨.unmake d, .running⟩
  have one : added d ⟨.unmake d, .running⟩ = -1 := if_pos rfl
  have zero : added d ⟨.unmake d, .waiting⟩ = 0 := rfl
  omega

theorem total_unmade {devices : List Device}
    (unmakes : tasks.map Task.request = devices.map .unmake)
    (unmade : ∀ task ∈ tasks, task.future = .finished (.ok none)) :
    total d tasks = -devices.count d := by
  induction tasks generalizing devices with
  | nil =>
    cases devices with
    | nil => rfl
    | cons => cases unmakes
  | cons task rest ih =>
    cases devices with
    | nil => cases unmakes
    | cons d' devices =>
      rw [List.map_cons, List.map_cons, List.cons.injEq] at unmakes
      have done := unmade task List.mem_cons_self
      obtain ⟨request, future⟩ := task
      obtain ⟨rfl, later⟩ := unmakes
      change future = .finished (.ok none) at done
      subst done
      rw [total_cons, neg_count_cons,
        ih later (fun task' member => unmade task' (List.mem_cons_of_mem _ member))]
      rfl

end Task

namespace ListMake

open Factory (Turn Turned counter)

def Phase.failure : Phase → Option Exn
  | .collecting | .returned => none
  | .unmaking e | .throwing e | .thrown e => some e

/-- The devices that `unmake` was called with. -/
def unmakes (s : ListMake) : List Device :=
  match Phase.failure s.phase with
  | none => []
  | some _ => s.devices

/-- What the phase says about the tasks. `n` is the length of the list. -/
def Waited (n : Nat) (s : ListMake) : Prop :=
  match s.phase with
  | .collecting | .unmaking _ => True
  | .throwing _ => ∀ task ∈ s.tasks.drop n, task.Finished
  | .thrown _ => ∀ task ∈ s.tasks, task.Finished
  | .returned => s.devices.length = n

structure Inv (base : Thread) (f₀ : Factory) (argsList : List Kwargs) (s : ListMake) : Prop where
  requests : s.tasks.map Task.request = argsList.map .make ++ s.unmakes.map .unmake
  at_ : ∀ (k : Nat) (task : Task), s.tasks[k]? = some task → task.At (s.factory.calls (base + k))
  idle : ∀ k, s.tasks.length ≤ k → s.factory.calls (base + k) = .idle
  counters : ∀ d, (s.factory.counter d : Int) = f₀.counter d + Task.total d s.tasks
  within : s.devices.length ≤ argsList.length
  collected : (s.tasks.take s.devices.length).map Task.future =
    s.devices.map (fun d => .finished (.ok (some d)))
  failed : ∀ e, Phase.failure s.phase = some e → s.devices.length < argsList.length ∧
    ∃ task, s.tasks[s.devices.length]? = some task ∧ task.future = .finished (.error e)
  waited : s.Waited argsList.length

section

variable {makeFunctions : List Bytes} {base : Thread} {f₀ : Factory} {argsList : List Kwargs}
  {s s' : ListMake}

namespace Inv

theorem start (idle : ∀ t, base ≤ t → f₀.calls t = .idle) :
    Inv base f₀ argsList (start f₀ argsList) where
  requests := by simp [ListMake.start, unmakes, Phase.failure]
  at_ k task here := by
    have fresh : task.future = .waiting := by
      obtain ⟨args, _, rfl⟩ := List.mem_map.mp (List.mem_of_getElem? here)
      rfl
    obtain ⟨request, future⟩ := task
    change future = .waiting at fresh
    subst fresh
    exact idle (base + k) (Nat.le_add_right base k)
  idle k _ := idle (base + k) (Nat.le_add_right base k)
  counters d := by
    have none : Task.total d (ListMake.start f₀ argsList).tasks = 0 := by
      simp [ListMake.start, Task.total, Task.added, Function.comp_def]
    rw [none, Int.add_zero]
    rfl
  within := Nat.zero_le _
  collected := rfl
  failed e failure := by cases failure
  waited := trivial

section

variable (inv : Inv base f₀ argsList s)
include inv

theorem makes :
    (s.tasks.take argsList.length).map Task.request = argsList.map .make := by
  rw [List.map_take, inv.requests, List.take_left' (List.length_map _)]

theorem unmakes :
    (s.tasks.drop argsList.length).map Task.request = s.unmakes.map .unmake := by
  rw [List.map_drop, inv.requests, List.drop_left' (List.length_map _)]

theorem isMake {task : Task} (member : task ∈ s.tasks.take argsList.length) : task.IsMake := by
  have request : task.request ∈ (s.tasks.take argsList.length).map Task.request :=
    List.mem_map_of_mem member
  rw [inv.makes] at request
  obtain ⟨args, _, same⟩ := List.mem_map.mp request
  exact ⟨args, same.symm⟩

theorem total_makes (d : Device) :
    (s.devices.count d : Int) ≤ Task.total d (s.tasks.take argsList.length) := by
  have gave := inv.collected
  have front : (s.tasks.take argsList.length).take s.devices.length =
      s.tasks.take s.devices.length := by
    rw [List.take_take, Nat.min_eq_left inv.within]
  rw [← front] at gave
  have collected := @Task.total_collected d _
    (fun task member => inv.isMake (List.mem_of_mem_take member)) _ gave
  have behind := @Task.total_makes d ((s.tasks.take argsList.length).drop s.devices.length)
    (fun task member => inv.isMake (List.mem_of_mem_drop member))
  rw [Task.total_split s.devices.length]
  omega

theorem counted {k : Nat} {d : Device}
    (here : s.tasks[k]? = some ⟨.unmake d, .waiting⟩) : 0 < s.factory.counter d := by
  have behind : argsList.length ≤ k := by
    apply Nat.le_of_not_lt
    intro front
    have member : ⟨.unmake d, .waiting⟩ ∈ s.tasks.take argsList.length := by
      apply List.mem_of_getElem?
      rw [List.getElem?_take_of_lt front]
      exact here
    obtain ⟨args, make⟩ := inv.isMake member
    cases make
  have place : (s.tasks.drop argsList.length)[k - argsList.length]? =
      some ⟨.unmake d, .waiting⟩ := by
    rw [List.getElem?_drop, Nat.add_sub_cancel' behind]
    exact here
  have given : s.unmakes.count d ≤ s.devices.count d := by
    unfold ListMake.unmakes
    cases Phase.failure s.phase with
    | none => exact Nat.zero_le _
    | some e => exact Nat.le_refl _
  have taken := Task.total_waiting inv.unmakes place
  have made := inv.total_makes d
  have counters := inv.counters d
  rw [Task.total_split argsList.length] at counters
  omega

theorem uncollected {k : Nat} {task : Task}
    (here : s.tasks[k]? = some task) (open_ : ¬ task.Finished) : s.devices.length ≤ k := by
  apply Nat.le_of_not_lt
  intro before
  have entry := congrArg (·[k]?) inv.collected
  simp only [List.getElem?_map, List.getElem?_take_of_lt before, here,
    List.getElem?_eq_getElem before, Option.map_some, Option.some.injEq] at entry
  exact open_ ⟨_, entry⟩

theorem turned {k : Nat} {task : Task} {f : Factory}
    (here : s.tasks[k]? = some task) (turn : Turn makeFunctions (base + k) task s.factory f) :
    Turned (base + k) task { task with future := s.factory.outcome f (base + k) } s.factory f := by
  have place := inv.at_ k task here
  obtain ⟨request, future⟩ := task
  cases request with
  | make args => exact turn.make place
  | unmake d =>
    apply turn.unmake place
    rintro rfl
    exact inv.counted here

omit inv in
theorem open_of_turn {task : Task} {t : Thread} {f f' : Factory}
    (turn : Turn makeFunctions t task f f') : ¬ task.Finished := by
  rintro ⟨result, finished⟩
  cases turn with
  | begins waits =>
    rw [waits] at finished
    cases finished
  | continues a runs =>
    rw [runs] at finished
    cases finished

omit inv in
theorem turn (inv : Inv base f₀ argsList s) {k : Nat} {task : Task} {f : Factory}
    (here : s.tasks[k]? = some task) (turn : Turn makeFunctions (base + k) task s.factory f) :
    Inv base f₀ argsList { s with
      factory := f
      tasks := s.tasks.set k { task with future := s.factory.outcome f (base + k) } } := by
  have turned := inv.turned here turn
  have inside := (List.getElem?_eq_some_iff.mp here).1
  have open_ := open_of_turn turn
  have behind := inv.uncollected here open_
  constructor
  · have same := @Task.map_request_set s.tasks k task
      { task with future := s.factory.outcome f (base + k) } here rfl
    exact same.trans inv.requests
  · intro k' task' entry
    cases decEq k k' with
    | isTrue same =>
      subst same
      rw [List.getElem?_set_self inside] at entry
      cases entry
      exact turned.at_
    | isFalse other =>
      rw [List.getElem?_set_ne other] at entry
      have apart : base + k' ≠ base + k := fun same => other (Nat.add_left_cancel same).symm
      rw [turned.others _ apart]
      exact inv.at_ k' task' entry
  · intro k' beyond
    rw [List.length_set] at beyond
    have apart : base + k' ≠ base + k := by
      intro same
      rw [Nat.add_left_cancel same] at beyond
      exact absurd inside (Nat.not_lt_of_le beyond)
    exact (turned.others _ apart).trans (inv.idle k' beyond)
  · intro d
    have before := inv.counters d
    have moved := turned.counters d
    have changed := Task.total_set (d := d) here
      { task with future := s.factory.outcome f (base + k) }
    change (f.counter d : Int) = f₀.counter d + Task.total d (s.tasks.set k _)
    omega
  · exact inv.within
  · rw [List.take_set_of_le behind]
    exact inv.collected
  · intro e failure
    obtain ⟨more, failing, entry, thrown⟩ := inv.failed e failure
    refine ⟨more, failing, ?_, thrown⟩
    have other : k ≠ s.devices.length := by
      rintro rfl
      rw [here] at entry
      cases entry
      exact open_ ⟨_, thrown⟩
    rw [List.getElem?_set_ne other]
    exact entry
  · have waited := inv.waited
    unfold Waited at waited ⊢
    dsimp only
    cases phase : s.phase with
    | collecting | unmaking => trivial
    | throwing e =>
      rw [phase] at waited
      dsimp only at waited ⊢
      have front : k < argsList.length := by
        apply Nat.lt_of_not_le
        intro back
        have entry : (s.tasks.drop argsList.length)[k - argsList.length]? = some task := by
          rw [List.getElem?_drop, Nat.add_sub_cancel' back]
          exact here
        exact open_ (waited task (List.mem_of_getElem? entry))
      rw [List.drop_set_of_lt front]
      exact waited
    | thrown e =>
      rw [phase] at waited
      exact absurd (waited task (List.mem_of_getElem? here)) open_
    | returned =>
      rw [phase] at waited
      exact waited

omit inv in
theorem unmakes_collecting (here : s.phase = .collecting) : s.unmakes = [] := by
  rw [ListMake.unmakes, here]
  rfl

theorem length_collecting (here : s.phase = .collecting) :
    s.tasks.length = argsList.length := by
  have lengths := congrArg List.length inv.requests
  rw [unmakes_collecting here] at lengths
  simpa using lengths

theorem get {task : Task} {d : Device}
    (here : s.phase = .collecting) (next : s.tasks[s.devices.length]? = some task)
    (ready : task.future = .finished (.ok (some d))) :
    Inv base f₀ argsList { s with devices := s.devices ++ [d] } where
  requests := by
    have before := inv.requests
    rw [unmakes_collecting here] at before
    rw [@unmakes_collecting { s with devices := s.devices ++ [d] } here]
    exact before
  at_ := inv.at_
  idle := inv.idle
  counters := inv.counters
  within := by
    have inside := (List.getElem?_eq_some_iff.mp next).1
    rw [inv.length_collecting here] at inside
    rw [List.length_append]
    exact inside
  collected := by
    rw [List.length_append, List.length_singleton, List.take_add_one, next, List.map_append,
      List.map_append, inv.collected]
    simp [ready]
  failed e failure := by
    change Phase.failure s.phase = some e at failure
    rw [here] at failure
    cases failure
  waited := by
    change match s.phase with | _ => _
    rw [here]
    trivial

theorem fails {task : Task} {e : Exn}
    (here : s.phase = .collecting) (next : s.tasks[s.devices.length]? = some task)
    (ready : task.future = .finished (.error e)) :
    Inv base f₀ argsList { s with
      phase := .unmaking e
      tasks := s.tasks ++ s.devices.map (fun d => ⟨.unmake d, .waiting⟩) } where
  requests := by
    have before := inv.requests
    rw [unmakes_collecting here, List.map_nil, List.append_nil] at before
    rw [List.map_append, before, List.map_map]
    rfl
  at_ k task entry := by
    cases Nat.lt_or_ge k s.tasks.length with
    | inl old =>
      rw [List.getElem?_append_left old] at entry
      exact inv.at_ k task entry
    | inr new =>
      rw [List.getElem?_append_right new] at entry
      obtain ⟨d, _, rfl⟩ := List.mem_map.mp (List.mem_of_getElem? entry)
      exact inv.idle k new
  idle k beyond := by
    rw [List.length_append] at beyond
    exact inv.idle k (Nat.le_of_add_right_le beyond)
  counters d := by
    have none : Task.total d
        (s.devices.map (fun d => (⟨.unmake d, .waiting⟩ : Task))) = 0 := by
      simp [Task.total, Task.added, Function.comp_def]
    rw [Task.total_append, none, Int.add_zero]
    exact inv.counters d
  within := inv.within
  collected := by
    have inside := (List.getElem?_eq_some_iff.mp next).1
    rw [List.take_append_of_le_length (Nat.le_of_lt inside)]
    exact inv.collected
  failed e' failure := by
    cases failure
    have inside := (List.getElem?_eq_some_iff.mp next).1
    refine ⟨?_, task, ?_, ready⟩
    · rw [inv.length_collecting here] at inside
      exact inside
    · rw [List.getElem?_append_left inside]
      exact next
  waited := trivial

theorem leaves {phase : Phase} (same : Phase.failure phase = Phase.failure s.phase)
    (waited : Waited argsList.length { s with phase := phase }) :
    Inv base f₀ argsList { s with phase := phase } where
  requests := by
    have unchanged : ListMake.unmakes { s with phase := phase } = s.unmakes := by
      rw [ListMake.unmakes, ListMake.unmakes, same]
    rw [unchanged]
    exact inv.requests
  at_ := inv.at_
  idle := inv.idle
  counters := inv.counters
  within := inv.within
  collected := inv.collected
  failed e failure := inv.failed e (same ▸ failure)
  waited := waited

omit inv in
theorem step (inv : Inv base f₀ argsList s) {a : Action}
    (step : Step makeFunctions base argsList.length s a s') : Inv base f₀ argsList s' := by
  cases step with
  | turn k task f here turns => exact inv.turn here turns
  | get task d here next ready => exact inv.get here next ready
  | returns here all =>
    apply inv.leaves
    · rw [here]
      rfl
    · exact all
  | fails task e here next ready => exact inv.fails here next ready
  | unmade e here all =>
    apply inv.leaves
    · rw [here]
      rfl
    · exact all
  | throws e here all =>
    apply inv.leaves
    · rw [here]
      rfl
    · exact all

omit inv in
theorem of_run {f₀ : Factory} (idle : ∀ t, base ≤ t → f₀.calls t = .idle)
    (run : Runs (Step makeFunctions base argsList.length) (fun _ _ => True)
      (ListMake.start f₀ argsList) s) : Inv base f₀ argsList s :=
  run.keeps (fun _ _ _ inv _ step => inv.step step) (start idle)

theorem turns {k : Nat} {task : Task} (here : s.tasks[k]? = some task) (open_ : ¬ task.Finished) :
    ∃ f, Turn makeFunctions (base + k) task s.factory f := by
  have place := inv.at_ k task here
  obtain ⟨request, future⟩ := task
  cases future with
  | finished result => exact absurd ⟨result, rfl⟩ open_
  | waiting =>
    cases request with
    | make args => exact ⟨_, .begins rfl (.make _ args place)⟩
    | unmake d => exact ⟨_, .begins rfl (.unmake _ d place)⟩
  | running =>
    cases request with
    | make args =>
      change (s.factory.calls (base + k)).Making at place
      cases call : s.factory.calls (base + k) with
      | enumerating inputArgs =>
        exact ⟨_, .continues (.enumerate _ []) rfl rfl (.enumerate _ inputArgs [] call)⟩
      | creating discoveredArgs driver hybridArgs =>
        exact ⟨_, .continues (.create _) rfl rfl (.create _ _ _ _ call)⟩
      | created discoveredArgs result =>
        exact ⟨_, .continues (.store _) rfl rfl (.store _ _ _ call)⟩
      | idle | deleting | deleted =>
        rw [call] at place
        exact place.elim
    | unmake d =>
      change (s.factory.calls (base + k)).Unmaking at place
      cases call : s.factory.calls (base + k) with
      | deleting d' argsList =>
        exact ⟨_, .continues (.delete _) rfl rfl (.delete _ _ _ call)⟩
      | deleted argsList => exact ⟨_, .continues (.clean _) rfl rfl (.clean _ _ call)⟩
      | idle | enumerating | creating | created =>
        rw [call] at place
        exact place.elim

theorem gives_device {k : Nat} {task : Task}
    (front : k < argsList.length) (here : s.tasks[k]? = some task) :
    task.future ≠ .finished (.ok none) := by
  intro finished
  have member : task ∈ s.tasks.take argsList.length := by
    apply List.mem_of_getElem?
    rw [List.getElem?_take_of_lt front]
    exact here
  have place := inv.at_ k task here
  obtain ⟨args, make⟩ := inv.isMake member
  obtain ⟨request, future⟩ := task
  change request = .make args at make
  change future = .finished (.ok none) at finished
  subst make finished
  exact place

theorem ended
    (stuck : ∀ a s', ¬ Step makeFunctions base argsList.length s a s') :
    s.phase = .returned ∨ ∃ e, s.phase = .thrown e := by
  have all : ∀ task ∈ s.tasks, task.Finished := by
    intro task member
    obtain ⟨k, here⟩ := List.mem_iff_getElem?.mp member
    apply Classical.byContradiction
    intro open_
    obtain ⟨f, turn⟩ := @turns makeFunctions _ _ _ _ inv _ _ here open_
    exact stuck _ _ (.turn k task f here turn)
  cases phase : s.phase with
  | returned => exact .inl rfl
  | thrown e => exact .inr ⟨e, rfl⟩
  | throwing e => exact absurd (.throws e phase all) (stuck _ _)
  | unmaking e =>
    have drop : ∀ task ∈ s.tasks.drop argsList.length, task.Finished :=
      fun task member => all task (List.mem_of_mem_drop member)
    exact absurd (.unmade e phase drop) (stuck _ _)
  | collecting =>
    cases Nat.eq_or_lt_of_le inv.within with
    | inl full => exact absurd (.returns phase full) (stuck _ _)
    | inr more =>
      have inside : s.devices.length < s.tasks.length := by
        rw [inv.length_collecting phase]
        exact more
      obtain ⟨task, here⟩ : ∃ task, s.tasks[s.devices.length]? = some task :=
        ⟨_, List.getElem?_eq_getElem inside⟩
      obtain ⟨result, finished⟩ := all task (List.mem_of_getElem? here)
      cases result with
      | error e => exact absurd (.fails _ e phase here finished) (stuck _ _)
      | ok given =>
        cases given with
        | some d => exact absurd (.get _ d phase here finished) (stuck _ _)
        | none => exact absurd finished (inv.gives_device more here)

theorem no_step
    (done : s.phase = .returned ∨ ∃ e, s.phase = .thrown e) (a : Action) (s' : ListMake) :
    ¬ Step makeFunctions base argsList.length s a s' := by
  intro step
  have waited := inv.waited
  cases step with
  | turn k task f here turns =>
    have open_ := open_of_turn turns
    rcases done with returned | ⟨e, thrown⟩
    · rw [Waited, returned] at waited
      have lengths := congrArg List.length inv.requests
      rw [ListMake.unmakes, returned] at lengths
      simp only [List.length_map, List.length_append] at lengths
      have inside := (List.getElem?_eq_some_iff.mp here).1
      have behind := inv.uncollected here open_
      change s.devices.length = argsList.length at waited
      change s.tasks.length = argsList.length + 0 at lengths
      omega
    · rw [Waited, thrown] at waited
      exact open_ (waited task (List.mem_of_getElem? here))
  | get _ _ here | returns here | fails _ _ here | unmade _ here | throws _ here =>
    rw [here] at done
    rcases done with returned | ⟨_, thrown⟩
    · cases returned
    · cases thrown

end

end Inv

def leftAt (base : Thread) (s : ListMake) (k : Nat) : Nat :=
  match s.tasks[k]? with
  | some task => task.left (s.factory.calls (base + k))
  | none => 0

def leftOver (n : Nat) (s : ListMake) : Nat :=
  match s.phase with
  | .collecting => 5 * n + 3 - s.devices.length
  | .unmaking _ => 2
  | .throwing _ => 1
  | .returned | .thrown _ => 0

def left (base : Thread) (n : Nat) (s : ListMake) : Nat :=
  ∑ k ∈ Finset.range s.tasks.length, s.leftAt base k + s.leftOver n

theorem left_turn {base : Thread} {s : ListMake} {k : Nat} {task task' : Task} {f : Factory}
    (here : s.tasks[k]? = some task) (turned : Turned (base + k) task task' s.factory f) (n : Nat) :
    left base n { s with factory := f, tasks := s.tasks.set k task' } < left base n s := by
  have inside := (List.getElem?_eq_some_iff.mp here).1
  have others : ∀ k', k' ≠ k →
      leftAt base { s with factory := f, tasks := s.tasks.set k task' } k' = leftAt base s k' := by
    intro k' other
    have apart : base + k' ≠ base + k := fun same => other (Nat.add_left_cancel same)
    simp only [leftAt, turned.others _ apart]
    rw [List.getElem?_set_ne (Ne.symm other)]
  have here_less : leftAt base { s with factory := f, tasks := s.tasks.set k task' } k <
      leftAt base s k := by
    simp only [leftAt, here]
    rw [List.getElem?_set_self inside]
    exact turned.less
  have sums : ∑ k' ∈ Finset.range s.tasks.length,
      leftAt base { s with factory := f, tasks := s.tasks.set k task' } k' <
        ∑ k' ∈ Finset.range s.tasks.length, leftAt base s k' := by
    apply Finset.sum_lt_sum
    · intro k' _
      cases decEq k' k with
      | isTrue same =>
        subst same
        exact Nat.le_of_lt here_less
      | isFalse other => exact Nat.le_of_eq (others k' other)
    · exact ⟨k, Finset.mem_range.mpr inside, here_less⟩
  unfold left
  rw [List.length_set]
  exact Nat.add_lt_add_right sums _

theorem left_fails (s : ListMake) (base : Thread) (e : Exn) (n : Nat) :
    left base n { s with
      phase := .unmaking e
      tasks := s.tasks ++ s.devices.map (fun d => ⟨.unmake d, .waiting⟩) } ≤
    ∑ k ∈ Finset.range s.tasks.length, leftAt base s k + s.devices.length * 4 + 2 := by
  unfold left
  rw [List.length_append, List.length_map, Finset.sum_range_add]
  apply Nat.add_le_add_right
  apply Nat.add_le_add
  · apply Finset.sum_le_sum
    intro k member
    simp only [leftAt]
    rw [List.getElem?_append_left (Finset.mem_range.mp member)]
  · have each : ∀ k ∈ Finset.range s.devices.length, leftAt base { s with
        phase := .unmaking e
        tasks := s.tasks ++ s.devices.map (fun d => ⟨.unmake d, .waiting⟩) }
          (s.tasks.length + k) ≤ 4 := by
      intro k member
      simp only [leftAt]
      rw [List.getElem?_append_right (Nat.le_add_right _ k), Nat.add_sub_cancel_left,
        List.getElem?_map, List.getElem?_eq_getElem (Finset.mem_range.mp member)]
      exact Nat.le_refl 4
    have sum := Finset.sum_le_card_nsmul _ _ 4 each
    rw [Finset.card_range] at sum
    exact sum

theorem Inv.less (inv : Inv base f₀ argsList s) {a : Action}
    (step : Step makeFunctions base argsList.length s a s') :
    left base argsList.length s' < left base argsList.length s := by
  cases step with
  | turn k task f here turns => exact left_turn here (inv.turned here turns) _
  | get task d here next ready =>
    have inside := (List.getElem?_eq_some_iff.mp next).1
    rw [inv.length_collecting here] at inside
    have fewer : leftOver argsList.length { s with devices := s.devices ++ [d] } <
        leftOver argsList.length s := by
      simp only [leftOver, here, List.length_append, List.length_singleton]
      omega
    exact Nat.add_lt_add_left fewer _
  | returns here all =>
    have fewer : leftOver argsList.length { s with phase := .returned } <
        leftOver argsList.length s := by
      simp only [leftOver, here]
      omega
    exact Nat.add_lt_add_left fewer _
  | fails task e here next ready =>
    have inside := (List.getElem?_eq_some_iff.mp next).1
    rw [inv.length_collecting here] at inside
    have added := left_fails s base e argsList.length
    have fewer : leftOver argsList.length s = 5 * argsList.length + 3 - s.devices.length := by
      rw [leftOver, here]
    unfold left at added ⊢
    omega
  | unmade e here all =>
    have fewer : leftOver argsList.length { s with phase := .throwing e } <
        leftOver argsList.length s := by
      simp only [leftOver, here]
      exact Nat.lt_succ_self 1
    exact Nat.add_lt_add_left fewer _
  | throws e here all =>
    have fewer : leftOver argsList.length { s with phase := .thrown e } <
        leftOver argsList.length s := by
      simp only [leftOver, here]
      exact Nat.one_pos
    exact Nat.add_lt_add_left fewer _

theorem Inv.ends (inv : Inv base f₀ argsList s) :
    Acc (fun s' s => ∃ a, Step makeFunctions base argsList.length s a s') s := by
  induction steps : left base argsList.length s using Nat.strong_induction_on generalizing s with
  | _ steps ih =>
    constructor
    intro s' ⟨a, step⟩
    subst steps
    exact ih _ (inv.less step) (inv.step step) rfl

/-- The call has returned a device for each entry, or has thrown and left every counter as it was
    before. -/
def AllOrNothing (f₀ : Factory) (argsList : List Kwargs) (s : ListMake) : Prop :=
  match s.phase with
  | .returned => s.devices.length = argsList.length ∧
      ∀ (k : Nat) (args : Kwargs), argsList[k]? = some args → ∃ d, s.devices[k]? = some d ∧
        s.tasks[k]? = some ⟨.make args, .finished (.ok (some d))⟩
  | .thrown _ => ∀ d, s.factory.counter d = f₀.counter d
  | .collecting | .unmaking _ | .throwing _ => False

/-- The calls of `make` for the `n` entries have succeeded and failed like this. -/
def Assigned (succeeds : Nat → Bool) (n : Nat) (s : ListMake) : Prop :=
  ∀ (k : Nat) (task : Task) (result : Except Exn (Option Device)), k < n →
    s.tasks[k]? = some task → task.future = .finished result → result.isOk = succeeds k

def NoneBehind (succeeds : Nat → Bool) (n : Nat) : Prop :=
  ∀ i j, i < j → j < n → succeeds i = false → succeeds j = false

namespace Inv

section

variable (inv : Inv base f₀ argsList s)
include inv

theorem collected_at {k : Nat} {args : Kwargs}
    (before : k < s.devices.length) (entry : argsList[k]? = some args) :
    ∃ d, s.devices[k]? = some d ∧ s.tasks[k]? = some ⟨.make args, .finished (.ok (some d))⟩ := by
  have requests := congrArg (·[k]?) inv.requests
  have futures := congrArg (·[k]?) inv.collected
  have inside : k < (argsList.map Request.make).length := by
    rw [List.length_map]
    exact Nat.lt_of_lt_of_le before inv.within
  simp only [List.getElem?_map, List.getElem?_append_left inside, entry, Option.map_some,
    Option.map_eq_some_iff] at requests
  obtain ⟨task, here, request⟩ := requests
  obtain ⟨asked, future⟩ := task
  change asked = .make args at request
  subst request
  simp only [List.getElem?_map, List.getElem?_take_of_lt before, here, Option.map_some] at futures
  cases device : s.devices[k]? with
  | none =>
    rw [device] at futures
    cases futures
  | some d =>
    rw [device] at futures
    cases futures
    exact ⟨d, rfl, here⟩

omit inv in
/-- The later tasks of `make` behind the one that failed. -/
def Behind (s : ListMake) (n : Nat) : List Task := (s.tasks.take n).drop (s.devices.length + 1)

theorem behind_makes :
    ∀ task ∈ Behind s argsList.length, task.IsMake :=
  fun _ member => inv.isMake (List.mem_of_mem_drop member)

theorem unmade {e : Exn} (thrown : s.phase = .thrown e)
    (d : Device) : Task.total d (s.tasks.drop argsList.length) = -s.devices.count d := by
  have requests := inv.unmakes
  have all := inv.waited
  rw [ListMake.unmakes, thrown] at requests
  rw [Waited, thrown] at all
  apply Task.total_unmade requests
  intro task member
  obtain ⟨k, entry⟩ := List.mem_iff_getElem?.mp member
  have request := congrArg (·[k]?) requests
  simp only [List.getElem?_map, entry, Option.map_some] at request
  obtain ⟨d', _, same⟩ := Option.map_eq_some_iff.mp request.symm
  rw [List.getElem?_drop] at entry
  have place := inv.at_ _ task entry
  obtain ⟨result, finished⟩ := all task (List.mem_of_mem_drop member)
  obtain ⟨asked, future⟩ := task
  change Request.unmake d' = asked at same
  change future = .finished result at finished
  subst same finished
  cases result with
  | error e => exact place.elim
  | ok given =>
    cases given with
    | none => rfl
    | some d => exact place.elim

theorem remaining {e : Exn} (thrown : s.phase = .thrown e)
    (d : Device) : (s.factory.counter d : Int) =
      f₀.counter d + Task.total d (Behind s argsList.length) := by
  have failure : Phase.failure s.phase = some e := by
    rw [thrown]
    rfl
  obtain ⟨more, failing, here, failed⟩ := inv.failed e failure
  have front : (s.tasks.take argsList.length).take s.devices.length =
      s.tasks.take s.devices.length := by
    rw [List.take_take, Nat.min_eq_left inv.within]
  have collected : Task.total d (s.tasks.take s.devices.length) = s.devices.count d := by
    apply Task.total_collected _ inv.collected
    intro task member
    rw [← front] at member
    exact inv.isMake (List.mem_of_mem_take member)
  have entry : (s.tasks.take argsList.length)[s.devices.length]? = some failing := by
    rw [List.getElem?_take_of_lt more]
    exact here
  have none : failing.added d = 0 := by
    obtain ⟨args, make⟩ := inv.isMake (List.mem_of_getElem? entry)
    obtain ⟨request, future⟩ := failing
    change request = .make args at make
    change future = .finished (.error e) at failed
    subst make failed
    rfl
  have middle : (s.tasks.take argsList.length).drop s.devices.length =
      failing :: Behind s argsList.length := by
    obtain ⟨inside, same⟩ := List.getElem?_eq_some_iff.mp entry
    rw [List.drop_eq_getElem_cons inside, same]
    rfl
  have unmade := inv.unmade thrown d
  rw [inv.counters d, Task.total_split argsList.length, unmade,
    @Task.total_split d (s.tasks.take argsList.length) s.devices.length, front, collected, middle,
    Task.total_cons, none]
  omega

theorem returned_iff (returned : s.phase = .returned)
    {succeeds : Nat → Bool} (assigned : s.Assigned succeeds argsList.length) :
    s.AllOrNothing f₀ argsList ↔ NoneBehind succeeds argsList.length := by
  have full := inv.waited
  rw [Waited, returned] at full
  change s.devices.length = argsList.length at full
  have each : ∀ (k : Nat) (args : Kwargs), argsList[k]? = some args → ∃ d, s.devices[k]? = some d ∧
      s.tasks[k]? = some ⟨.make args, .finished (.ok (some d))⟩ := by
    intro k args entry
    apply inv.collected_at _ entry
    rw [full]
    exact (List.getElem?_eq_some_iff.mp entry).1
  rw [AllOrNothing, returned]
  constructor
  · intro _ i j before inside failed
    -- no entry has failed
    have front : i < argsList.length := Nat.lt_trans before inside
    obtain ⟨d, _, here⟩ := each i _ (List.getElem?_eq_getElem front)
    rw [← assigned i _ _ front here rfl] at failed
    cases failed
  · exact fun _ => ⟨full, each⟩

theorem thrown_iff {e : Exn} (thrown : s.phase = .thrown e)
    {succeeds : Nat → Bool} (assigned : s.Assigned succeeds argsList.length) :
    s.AllOrNothing f₀ argsList ↔ NoneBehind succeeds argsList.length := by
  have failure : Phase.failure s.phase = some e := by
    rw [thrown]
    rfl
  obtain ⟨more, failing, here, failed⟩ := inv.failed e failure
  have all := inv.waited
  rw [Waited, thrown] at all
  have fails : succeeds s.devices.length = false := (assigned _ _ _ more here failed).symm
  have restored : s.AllOrNothing f₀ argsList ↔
      ∀ d, Task.total d (Behind s argsList.length) = 0 := by
    rw [AllOrNothing, thrown]
    constructor
    · intro same d
      have left := inv.remaining thrown d
      rw [same d] at left
      omega
    · intro none d
      have left := inv.remaining thrown d
      rw [none d] at left
      omega
  rw [restored, Task.total_zero_iff inv.behind_makes]
  constructor
  · intro nothing i j before inside failed'
    -- the first failure comes no later than this one
    have first : s.devices.length ≤ i := by
      apply Nat.le_of_not_lt
      intro earlier
      have front : i < argsList.length := Nat.lt_trans before inside
      obtain ⟨d, _, collected⟩ := inv.collected_at earlier (List.getElem?_eq_getElem front)
      rw [← assigned i _ _ front collected rfl] at failed'
      cases failed'
    have there : j < s.tasks.length := by
      have lengths := congrArg List.length inv.makes
      rw [List.length_map, List.length_map, List.length_take] at lengths
      omega
    have entry := List.getElem?_eq_getElem there
    have member : s.tasks[j] ∈ Behind s argsList.length := by
      apply List.mem_of_getElem?
      have place : s.devices.length + 1 + (j - (s.devices.length + 1)) = j := by omega
      rw [Behind, List.getElem?_drop, place, List.getElem?_take_of_lt inside]
      exact entry
    obtain ⟨result, finished⟩ := all _ (List.mem_of_getElem? entry)
    rw [← assigned j _ _ inside entry finished]
    cases result with
    | error e => rfl
    | ok given =>
      cases given with
      | none => exact absurd finished (inv.gives_device inside entry)
      | some d => exact absurd finished (nothing _ member d)
  · intro none task member d gave
    obtain ⟨k, entry⟩ := List.mem_iff_getElem?.mp member
    rw [Behind, List.getElem?_drop] at entry
    have inside : s.devices.length + 1 + k < argsList.length := by
      have bound := (List.getElem?_eq_some_iff.mp entry).1
      rw [List.length_take] at bound
      omega
    rw [List.getElem?_take_of_lt inside] at entry
    have succeeded := assigned _ _ _ inside entry gave
    rw [none s.devices.length _ (by omega) inside fails] at succeeded
    cases succeeded

end

end Inv

end

end ListMake

open ListMake in
/-- A call of `make` for a list ends, however the tasks interleave. It returns a device for each
    entry, or throws and leaves every counter as it was, exactly when no entry behind one that fails
    succeeds: such a device is not unmade. -/
theorem listMake_iff (makeFunctions : List Bytes) {base : Thread} {f₀ : Factory}
    (argsList : List Kwargs) (idle : ∀ t, base ≤ t → f₀.calls t = .idle) :
    Acc (fun s' s => ∃ a, Step makeFunctions base argsList.length s a s') (start f₀ argsList) ∧
    ∀ s succeeds, Runs (Step makeFunctions base argsList.length) (fun _ _ => True)
        (start f₀ argsList) s →
      (∀ a s', ¬ Step makeFunctions base argsList.length s a s') →
      s.Assigned succeeds argsList.length →
      (s.AllOrNothing f₀ argsList ↔ NoneBehind succeeds argsList.length) := by
  constructor
  · exact (Inv.start idle).ends
  · intro s succeeds run stuck assigned
    have inv := Inv.of_run idle run
    cases inv.ended stuck with
    | inl returned => exact inv.returned_iff returned assigned
    | inr thrown =>
      obtain ⟨e, thrown⟩ := thrown
      exact inv.thrown_iff thrown assigned

namespace ListMake

/-- What the enumeration finds. -/
def board : Kwargs := OrdMap.empty.insert (ascii "driver") (ascii "lime")

/-- What the driver throws. -/
def missing : Exn := .runtimeError (ascii "no board")

/-- A run of the example. -/
def Reaches (argsList : List Kwargs) (s : ListMake) : Prop :=
  Runs (Step [ascii "lime"] 0 argsList.length) (fun _ _ => True) (start .init argsList) s

theorem Reaches.turn {argsList : List Kwargs} {s : ListMake} {f : Factory} (k : Nat) (task : Task)
    (future : Future) (run : Reaches argsList s) (here : s.tasks[k]? = some task)
    (turns : Factory.Turn [ascii "lime"] k task s.factory f)
    (ended : s.factory.outcome f k = future) :
    Reaches argsList ⟨f, s.tasks.set k ⟨task.request, future⟩, s.devices, s.phase⟩ := by
  subst ended
  rw [← Nat.zero_add k] at turns
  have more := run.tail (.turn k task f here turns)
  rw [Nat.zero_add] at more
  exact more

theorem listMake_restores : ∃ s : ListMake, s.phase = .thrown missing ∧ s.devices = [0] ∧
    s.AllOrNothing .init [board, .empty] := by
  have run : Reaches [board, .empty] (start .init [board, .empty]) := .refl
  have stored := run
    |>.turn 0 ⟨.make board, .waiting⟩ .running rfl
      (.begins rfl (.make 0 board rfl)) rfl
    |>.turn 0 ⟨.make board, .running⟩ .running rfl
      (.continues (.enumerate 0 [board]) rfl rfl (.enumerate 0 board [board] rfl)) rfl
    |>.turn 0 ⟨.make board, .running⟩ .running rfl
      (.continues (.create 0) rfl rfl (.create 0 board (ascii "lime") board rfl)) rfl
    |>.turn 0 ⟨.make board, .running⟩ (.finished (.ok (some 0))) rfl
      (.continues (.store 0) rfl rfl (.store 0 board (.ok 0) rfl)) rfl
  have got : Reaches [board, .empty] _ :=
    stored.tail (.get ⟨.make board, .finished (.ok (some 0))⟩ 0 rfl rfl rfl)
  have failed := got
    |>.turn 1 ⟨.make .empty, .waiting⟩ .running rfl
      (.begins rfl (.make 1 .empty rfl)) rfl
    |>.turn 1 ⟨.make .empty, .running⟩ .running rfl
      (.continues (.enumerate 1 []) rfl rfl (.enumerate 1 .empty [] rfl)) rfl
    |>.turn 1 ⟨.make .empty, .running⟩ .running rfl
      (.continues (.fail 1 missing) rfl rfl (.fail 1 .empty (ascii "lime") .empty missing rfl)) rfl
  have stored' := failed.turn 1 ⟨.make .empty, .running⟩ (.finished (.error missing)) rfl
    (.continues (.store 1) rfl rfl (.store 1 .empty (.error missing) rfl)) rfl
  have caught : Reaches [board, .empty] _ :=
    stored'.tail (.fails ⟨.make .empty, .finished (.error missing)⟩ missing rfl rfl rfl)
  have cleaned := caught
    |>.turn 2 ⟨.unmake 0, .waiting⟩ .running rfl
      (.begins rfl (.unmake 2 0 rfl)) rfl
    |>.turn 2 ⟨.unmake 0, .running⟩ .running rfl
      (.continues (.delete 2) rfl rfl (.delete 2 0 [board] rfl)) rfl
    |>.turn 2 ⟨.unmake 0, .running⟩ (.finished (.ok none)) rfl
      (.continues (.clean 2) rfl rfl (.clean 2 [board] rfl)) rfl
  have all : ∀ task ∈ ([⟨.make board, .finished (.ok (some 0))⟩,
      ⟨.make .empty, .finished (.error missing)⟩, ⟨.unmake 0, .finished (.ok none)⟩] : List Task),
      task.Finished := by
    simp [Task.Finished]
  have squelched : Reaches [board, .empty] _ := cleaned.tail (.unmade missing rfl
    (fun task member => all task (List.mem_of_mem_drop member))) trivial
  have thrown : Reaches [board, .empty] _ := squelched.tail (.throws missing rfl all)
  have idle : ∀ t, 0 ≤ t → Factory.init.calls t = .idle := fun _ _ => rfl
  have behind : NoneBehind (fun k => k = 0) 2 := by
    intro i j before inside failed
    have later : i ≠ 0 := of_decide_eq_false failed
    omega
  have stuck := @Inv.no_step [ascii "lime"] _ _ _ _ (Inv.of_run idle thrown) (.inr ⟨missing, rfl⟩)
  have final := (listMake_iff [ascii "lime"] [board, .empty] idle).2 _ (fun k => k = 0) thrown stuck
  have assigned : ∀ (k : Nat) (task : Task) (result : Except Exn (Option Device)), k < 2 →
      ([⟨.make board, .finished (.ok (some 0))⟩, ⟨.make .empty, .finished (.error missing)⟩,
        ⟨.unmake 0, .finished (.ok none)⟩] : List Task)[k]? = some task →
      task.future = .finished result → result.isOk = decide (k = 0) := by
    intro k task result inside here finished
    match k with
    | 0 =>
      cases here
      cases finished
      rfl
    | 1 =>
      cases here
      cases finished
      rfl
  refine ⟨_, ?_, ?_, (final assigned).mpr behind⟩
  · rfl
  · rfl

/-- The first entry fails, and the device of the second stays. -/
theorem listMake_keeps : ∃ s : ListMake,
    Runs (Step [ascii "lime"] 0 2) (fun _ _ => True) (start .init [.empty, board]) s ∧
    (∀ a s', ¬ Step [ascii "lime"] 0 2 s a s') ∧ s.phase = .thrown missing ∧
    Factory.init.counter 0 = 0 ∧ s.factory.counter 0 = 1 ∧
    ¬ s.AllOrNothing .init [.empty, board] := by
  have run : Reaches [.empty, board] (start .init [.empty, board]) := .refl
  have stored := run
    |>.turn 0 ⟨.make .empty, .waiting⟩ .running rfl
      (.begins rfl (.make 0 .empty rfl)) rfl
    |>.turn 0 ⟨.make .empty, .running⟩ .running rfl
      (.continues (.enumerate 0 []) rfl rfl (.enumerate 0 .empty [] rfl)) rfl
    |>.turn 0 ⟨.make .empty, .running⟩ .running rfl
      (.continues (.fail 0 missing) rfl rfl (.fail 0 .empty (ascii "lime") .empty missing rfl)) rfl
    |>.turn 0 ⟨.make .empty, .running⟩ (.finished (.error missing)) rfl
      (.continues (.store 0) rfl rfl (.store 0 .empty (.error missing) rfl)) rfl
  have caught : Reaches [.empty, board] _ :=
    stored.tail (.fails ⟨.make .empty, .finished (.error missing)⟩ missing rfl rfl rfl)
  have squelched : Reaches [.empty, board] _ :=
    caught.tail (.unmade missing rfl (fun _ member => by cases member))
  have stored' := squelched
    |>.turn 1 ⟨.make board, .waiting⟩ .running rfl
      (.begins rfl (.make 1 board rfl)) rfl
    |>.turn 1 ⟨.make board, .running⟩ .running rfl
      (.continues (.enumerate 1 [board]) rfl rfl (.enumerate 1 board [board] rfl)) rfl
    |>.turn 1 ⟨.make board, .running⟩ .running rfl
      (.continues (.create 1) rfl rfl (.create 1 board (ascii "lime") board rfl)) rfl
    |>.turn 1 ⟨.make board, .running⟩ (.finished (.ok (some 0))) rfl
      (.continues (.store 1) rfl rfl (.store 1 board (.ok 0) rfl)) rfl
  have all : ∀ task ∈ ([⟨.make .empty, .finished (.error missing)⟩,
      ⟨.make board, .finished (.ok (some 0))⟩] : List Task), task.Finished := by
    simp [Task.Finished]
  have thrown : Reaches [.empty, board] _ := stored'.tail (.throws missing rfl all)
  have idle : ∀ t, 0 ≤ t → Factory.init.calls t = .idle := fun _ _ => rfl
  have stuck := @Inv.no_step [ascii "lime"] _ _ _ _ (Inv.of_run idle thrown) (.inr ⟨missing, rfl⟩)
  refine ⟨_, thrown, stuck, ?_, ?_, ?_, ?_⟩
  · rfl
  · rfl
  · rfl
  · intro restored
    exact absurd (restored 0) Nat.one_ne_zero

end ListMake

end Soapy.SDR
