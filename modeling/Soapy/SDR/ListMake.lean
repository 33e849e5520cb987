import Soapy.SDR.Factory

/-! # Device::make and Device::unmake for lists

`make` for a list launches a task for each of its entries and collects the devices in the order of
the list. When an entry fails, the devices that were collected are unmade by tasks of their own,
and the exception is thrown on. Every task is a thread of the factory, so the tasks take their
steps in any order, also while the results are collected. No other thread uses the factory
meanwhile.
-/

namespace Soapy.SDR

open Lib
open Soapy.Remote (Kwargs Exn)

/-- What a task calls. -/
inductive Request where
  | make (args : Kwargs)
  | unmake (device : Device)

/-- The future of a task, which may not have begun its call. A call of `unmake` gives no device. -/
inductive Future where
  | waiting
  | running
  | finished (result : Except Exn (Option Device))

structure Task where
  request : Request
  future : Future

def Task.Finished (task : Task) : Prop := ∃ result, task.future = .finished result

/-- Where `make` is. -/
inductive Phase where
  | collecting
  /-- In the `catch`, which waits for `unmake(devices)`. -/
  | unmaking (e : Exn)
  /-- The exception leaves and `futures` is destroyed, which waits for every task. -/
  | throwing (e : Exn)
  | returned
  | thrown (e : Exn)

/-- The tasks are those of `make` and then those of `unmake`. `devices` are the results so far. -/
structure ListMake where
  factory : Factory
  tasks : List Task
  devices : List Device
  phase : Phase

def Request.action (t : Thread) : Request → Factory.Action
  | .make args => .make t args
  | .unmake d => .unmake t d

def Factory.Action.Continues (t : Thread) : Factory.Action → Prop
  | .enumerate t' _ | .create t' | .fail t' _ | .store t' | .delete t' | .clean t' => t' = t
  | .make .. | .unmake .. => False

namespace Factory

def futureOf (c : Call) : List Event → Future
  | [.returned _ _ d] => .finished (.ok (some d))
  | [.threw e] => .finished (.error e)
  | _ =>
    match c with
    | .idle => .finished (.ok none)
    | _ => .running

/-- The future behind the step of a thread from `f` to `f'`. -/
def outcome (f f' : Factory) (t : Thread) : Future :=
  futureOf (f'.calls t) (f'.events.drop f.events.length)

def counter (f : Factory) (d : Device) : Nat := (f.deviceCounts.find? d).getD 0

inductive Turn (makeFunctions : List Bytes) (t : Thread) (task : Task) (f f' : Factory) : Prop
  | begins (waits : task.future = .waiting)
      (step : Step makeFunctions f (task.request.action t) f')
  | continues (a : Action) (runs : task.future = .running) (own : a.Continues t)
      (step : Step makeFunctions f a f')

end Factory

namespace ListMake

/-- The call of `make` with its tasks launched. -/
def start (f : Factory) (argsList : List Kwargs) : ListMake where
  factory := f
  tasks := argsList.map (fun args => ⟨.make args, .waiting⟩)
  devices := []
  phase := .collecting

inductive Action where
  | turn (k : Nat)
  | get
  | returns
  | fails
  | unmade
  | throws

/-- The thread of task `k` is `base + k`. The first `n` tasks are those of `make`. -/
inductive Step (makeFunctions : List Bytes) (base : Thread) (n : Nat) (s : ListMake) :
    Action → ListMake → Prop
  | turn (k : Nat) (task : Task) (f : Factory) (here : s.tasks[k]? = some task)
      (turns : Factory.Turn makeFunctions (base + k) task s.factory f) :
      Step makeFunctions base n s (.turn k)
        { s with
          factory := f
          tasks := s.tasks.set k { task with future := s.factory.outcome f (base + k) } }
  | get (task : Task) (d : Device) (here : s.phase = .collecting)
      (next : s.tasks[s.devices.length]? = some task)
      (ready : task.future = .finished (.ok (some d))) :
      Step makeFunctions base n s .get { s with devices := s.devices ++ [d] }
  | returns (here : s.phase = .collecting) (all : s.devices.length = n) :
      Step makeFunctions base n s .returns { s with phase := .returned }
  | fails (task : Task) (e : Exn) (here : s.phase = .collecting)
      (next : s.tasks[s.devices.length]? = some task) (ready : task.future = .finished (.error e)) :
      Step makeFunctions base n s .fails
        { s with
          phase := .unmaking e
          tasks := s.tasks ++ s.devices.map (fun d => ⟨.unmake d, .waiting⟩) }
  -- whatever `unmake` throws is squelched
  | unmade (e : Exn) (here : s.phase = .unmaking e) (all : ∀ task ∈ s.tasks.drop n, task.Finished) :
      Step makeFunctions base n s .unmade { s with phase := .throwing e }
  | throws (e : Exn) (here : s.phase = .throwing e) (all : ∀ task ∈ s.tasks, task.Finished) :
      Step makeFunctions base n s .throws { s with phase := .thrown e }

end ListMake

def Call.Making : Call → Prop
  | .enumerating _ | .creating .. | .created .. => True
  | .idle | .deleting .. | .deleted _ => False

def Call.Unmaking : Call → Prop
  | .deleting .. | .deleted _ => True
  | .idle | .enumerating _ | .creating .. | .created .. => False

def Call.left : Call → Nat
  | .idle => 0
  | .created .. | .deleted _ => 1
  | .creating .. | .deleting .. => 2
  | .enumerating _ => 3

namespace Task

/-- The thread of the task is where the future says. -/
def At (c : Call) : Task → Prop
  | ⟨_, .waiting⟩ => c = .idle
  | ⟨.make _, .running⟩ => c.Making
  | ⟨.unmake _, .running⟩ => c.Unmaking
  | ⟨.make _, .finished (.ok none)⟩ => False
  | ⟨.make _, .finished _⟩ => c = .idle
  | ⟨.unmake _, .finished (.ok none)⟩ => c = .idle
  | ⟨.unmake _, .finished _⟩ => False

def added (d : Device) : Task → Int
  | ⟨.make _, .finished (.ok (some d'))⟩ => if d' = d then 1 else 0
  | ⟨.unmake d', .running⟩ | ⟨.unmake d', .finished (.ok _)⟩ => if d' = d then -1 else 0
  | _ => 0

def left (c : Call) : Task → Nat
  | ⟨_, .waiting⟩ => 4
  | ⟨_, .running⟩ => c.left
  | ⟨_, .finished _⟩ => 0

end Task

namespace Factory

variable {makeFunctions : List Bytes} {t : Thread} {task task' : Task} {f f' : Factory}

/-- The task is `task'` after a turn. -/
structure Turned (t : Thread) (task task' : Task) (f f' : Factory) : Prop where
  others : ∀ t', t' ≠ t → f'.calls t' = f.calls t'
  at_ : task'.At (f'.calls t)
  counters : ∀ d, (f'.counter d : Int) + task.added d = f.counter d + task'.added d
  less : task'.left (f'.calls t) < task.left (f.calls t)

theorem counter_retain (f : Factory) (d d' : Device) :
    ((f.retain d).counter d' : Int) = f.counter d' + if d = d' then 1 else 0 := by
  unfold counter retain
  rw [OrdMap.find?_insert]
  cases decEq d d' with
  | isTrue same =>
    subst same
    simp
  | isFalse other => simp [other, Ne.symm other]

namespace Turned

theorem of_call {request : Request} {future : Future} (c : Call) (new : List Event)
    (events : f'.events = f.events ++ new) (calls : f'.calls = Function.update f.calls t c)
    (at_ : Task.At c ⟨request, futureOf c new⟩)
    (counters : ∀ d, (f'.counter d : Int) + Task.added d ⟨request, future⟩ =
      f.counter d + Task.added d ⟨request, futureOf c new⟩)
    (less : Task.left c ⟨request, futureOf c new⟩ < Task.left (f.calls t) ⟨request, future⟩) :
    Turned t ⟨request, future⟩ ⟨request, f.outcome f' t⟩ f f' := by
  have here : f'.calls t = c := by
    rw [calls]
    exact Function.update_self t c f.calls
  have ended : f.outcome f' t = futureOf c new := by rw [outcome, events, List.drop_left, here]
  rw [ended]
  constructor
  · intro t' other
    rw [calls]
    exact Function.update_of_ne other c f.calls
  · rw [here]
    exact at_
  · exact counters
  · rw [here]
    exact less

variable {args : Kwargs} {future : Future} {g : Factory}

theorem throws (e : Exn) (unchanged : ∀ d, Task.added d ⟨.make args, future⟩ = 0)
    (left : 0 < Task.left (f.calls t) ⟨.make args, future⟩) :
    Turned t ⟨.make args, future⟩
      ⟨.make args, f.outcome (f.ends t (.threw e)) t⟩ f (f.ends t (.threw e)) := by
  apply of_call .idle [.threw e] rfl rfl
  · rfl
  · intro d
    rw [unchanged d]
    rfl
  · exact left

theorem gives (d : Device) (a : Kwargs) (calls : g.calls = f.calls) (events : g.events = f.events)
    (counts : g.deviceCounts = f.deviceCounts)
    (unchanged : ∀ d, Task.added d ⟨.make args, future⟩ = 0)
    (left : 0 < Task.left (f.calls t) ⟨.make args, future⟩) :
    Turned t ⟨.make args, future⟩
      ⟨.make args, f.outcome ((g.retain d).ends t (.returned t a d)) t⟩ f
      ((g.retain d).ends t (.returned t a d)) := by
  apply of_call .idle [.returned t a d]
  · rw [← events]
    rfl
  · rw [← calls]
    rfl
  · rfl
  · intro d'
    have before : f.counter d' = g.counter d' := by rw [counter, counter, counts]
    rw [unchanged d', Int.add_zero, before]
    exact counter_retain g d d'
  · exact left

theorem goesOn (c : Call) (calls : g.calls = f.calls) (events : g.events = f.events)
    (counts : g.deviceCounts = f.deviceCounts) (making : c.Making)
    (unchanged : ∀ d, Task.added d ⟨.make args, future⟩ = 0)
    (less : c.left < Task.left (f.calls t) ⟨.make args, future⟩) :
    Turned t ⟨.make args, future⟩ ⟨.make args, f.outcome (g.goto t c) t⟩ f (g.goto t c) := by
  have runs : futureOf c [] = .running := by
    cases c with
    | idle | deleting | deleted => exact making.elim
    | enumerating | creating | created => rfl
  apply of_call c []
  · rw [← events, List.append_nil]
    rfl
  · rw [← calls]
    rfl
  · rw [runs]
    exact making
  · intro d
    have before : f.counter d = g.counter d := by rw [counter, counter, counts]
    rw [unchanged d, before, runs]
    rfl
  · rw [runs]
    exact less

end Turned

theorem Turn.make {args : Kwargs} {future : Future}
    (turn : Turn makeFunctions t ⟨.make args, future⟩ f f')
    (at_ : Task.At (f.calls t) ⟨.make args, future⟩) :
    Turned t ⟨.make args, future⟩ ⟨.make args, f.outcome f' t⟩ f f' := by
  cases turn with
  | begins waits step =>
    change future = .waiting at waits
    subst waits
    have unchanged : ∀ d, Task.added d ⟨.make args, .waiting⟩ = 0 := fun _ => rfl
    cases step with
    | make _ _ free =>
      unfold makeLookup
      rcases f.getDeviceFromTable_cases args with ⟨e, looked⟩ | ⟨d, found, looked⟩ | ⟨_, looked⟩
      · rw [looked]
        exact Turned.throws e unchanged (Nat.succ_pos 3)
      · rw [looked]
        exact Turned.gives d args rfl rfl rfl unchanged (Nat.succ_pos 3)
      · rw [looked]
        exact Turned.goesOn (.enumerating args) rfl rfl rfl trivial unchanged
          (Nat.lt_succ_self 3)
  | continues a runs own step =>
    change future = .running at runs
    subst runs
    have unchanged : ∀ d, Task.added d ⟨.make args, .running⟩ = 0 := fun _ => rfl
    change (f.calls t).Making at at_
    cases step with
    | make | unmake => exact own.elim
    | enumerate t' inputArgs results here =>
      change t' = t at own
      subst own
      have left : 2 < Task.left (f.calls t') ⟨.make args, .running⟩ := by
        rw [here]
        exact Nat.lt_succ_self 2
      unfold makeSelect
      rcases f.getDeviceFromTable_cases (results.headD .empty) with
        ⟨e, looked⟩ | ⟨d, found, looked⟩ | ⟨absent, looked⟩
      · simp only [looked]
        exact Turned.throws e unchanged (Nat.zero_lt_of_lt left)
      · simp only [looked]
        exact Turned.gives d _ rfl rfl rfl unchanged (Nat.zero_lt_of_lt left)
      · simp only [looked]
        split
        · exact Turned.throws _ unchanged (Nat.zero_lt_of_lt left)
        · exact Turned.goesOn _ rfl rfl rfl trivial unchanged left
    | create t' discoveredArgs _ _ here | fail t' discoveredArgs _ _ _ here =>
      change t' = t at own
      subst own
      have left : 1 < Task.left (f.calls t') ⟨.make args, .running⟩ := by
        rw [here]
        exact Nat.lt_succ_self 1
      exact Turned.goesOn (.created discoveredArgs _) rfl rfl rfl trivial unchanged left
    | store t' discoveredArgs result here =>
      change t' = t at own
      subst own
      have left : 0 < Task.left (f.calls t') ⟨.make args, .running⟩ := by
        rw [here]
        exact Nat.one_pos
      cases result with
      | error e => exact Turned.throws e unchanged left
      | ok d => exact Turned.gives d _ rfl rfl rfl unchanged left
    | delete t' _ _ here | clean t' _ here =>
      change t' = t at own
      subst own
      rw [here] at at_
      exact at_.elim

/-- The counters behind the decrement of `unmake`. -/
theorem counter_less {d : Device} {count : Nat} {left : Option Nat}
    (found : f.deviceCounts.find? d = some (count + 1)) (after : ∀ d', f'.deviceCounts.find? d' =
      if d' = d then left else f.deviceCounts.find? d') (less : left.getD 0 = count) (d' : Device) :
    (f'.counter d' : Int) + 0 = f.counter d' + if d = d' then -1 else 0 := by
  unfold counter
  rw [after]
  cases decEq d d' with
  | isTrue same =>
    subst same
    rw [if_pos rfl, if_pos rfl, less, found]
    simp
  | isFalse other => rw [if_neg (Ne.symm other), if_neg other]

theorem Turn.unmake {d : Device} {future : Future}
    (turn : Turn makeFunctions t ⟨.unmake d, future⟩ f f')
    (at_ : Task.At (f.calls t) ⟨.unmake d, future⟩)
    (counted : future = .waiting → 0 < f.counter d) :
    Turned t ⟨.unmake d, future⟩ ⟨.unmake d, f.outcome f' t⟩ f f' := by
  cases turn with
  | begins waits step =>
    change future = .waiting at waits
    subst waits
    cases step with
    | unmake _ _ free =>
      obtain ⟨count, found⟩ : ∃ count, f.deviceCounts.find? d = some (count + 1) := by
        have positive := counted rfl
        unfold counter at positive
        cases found : f.deviceCounts.find? d with
        | none =>
          rw [found] at positive
          exact absurd positive (Nat.lt_irrefl 0)
        | some number =>
          rw [found] at positive
          exact ⟨number - 1, congrArg some (Nat.succ_pred_eq_of_pos positive).symm⟩
      unfold unmakeCount
      simp only [found]
      split
      · apply Turned.of_call .idle [.unmade d] rfl rfl
        · rfl
        · exact counter_less found (OrdMap.find?_insert _ _ · _) rfl
        · exact Nat.succ_pos 3
      · rename_i last
        obtain rfl : count = 0 := by omega
        apply Turned.of_call (.deleting d (f.argsOf d)) [.unmade d] rfl rfl
        · trivial
        · exact counter_less found (OrdMap.find?_erase _ _ ·) rfl
        · exact Nat.lt_of_sub_eq_succ rfl
  | continues a runs own step =>
    change future = .running at runs
    subst runs
    change (f.calls t).Unmaking at at_
    cases step with
    | make | unmake => exact own.elim
    | delete t' d' argsList here =>
      change t' = t at own
      subst own
      apply Turned.of_call (.deleted argsList) [.deleted d'] rfl rfl
      · trivial
      · exact fun _ => rfl
      · rw [here]
        exact Nat.lt_succ_self 1
    | clean t' argsList here =>
      change t' = t at own
      subst own
      apply Turned.of_call .idle []
      · exact (List.append_nil _).symm
      · rfl
      · rfl
      · exact fun _ => rfl
      · rw [here]
        exact Nat.one_pos
    | enumerate t' _ _ here | create t' _ _ _ here | fail t' _ _ _ _ here | store t' _ _ here =>
      change t' = t at own
      subst own
      rw [here] at at_
      exact at_.elim

end Factory

end Soapy.SDR
