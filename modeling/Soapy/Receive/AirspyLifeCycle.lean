import Soapy.Receive.AirspyThreads

/-! # The life cycle of the libairspy threads

The flags tell at each place of the user's thread which threads there are. When nothing fails, both
threads are there from the end of `airspy_start_rx` to the joins in `airspy_stop_rx`.
-/

namespace Soapy.Receive.Airspy.Threads

open Lib

variable {s s' : State} {k : Kind} {i : Nat}

def State.id (s : State) : Kind → Option Nat
  | .consumer => s.consumer_thread
  | .transfer => s.transfer_thread

structure Has (s : State) (there : Kind → Bool) : Prop where
  fresh : ∀ i, s.next ≤ i → s.thread i = .absent
  mine : ∀ k, there k = true → ∃ i, s.id k = some i ∧ (s.thread i).Joinable k
  only : ∀ k i, s.Lives k i → there k = true ∧ s.id k = some i

abbrev neither : Kind → Bool := fun _ => false

abbrev both : Kind → Bool := fun _ => true

abbrev consumer_only : Kind → Bool
  | .consumer => true
  | .transfer => false

variable {p : Running}

section Threads

variable {there : Kind → Bool}

theorem Has.stays (has : Has s there) (thread : s'.thread = s.thread) (next : s'.next = s.next)
    (id : s'.id = s.id) : Has s' there := by
  constructor
  · rw [next, thread]
    exact has.fresh
  · rw [id, thread]
    exact has.mine
  · unfold State.Lives
    rw [id, thread]
    exact has.only

theorem Has.moves {t : Thread} (has : Has s there) (at_p : s.thread i = .running p)
    (same : t.Joinable p.kind) (thread : s'.thread = Function.update s.thread i t)
    (next : s'.next = s.next) (id : s'.id = s.id) : Has s' there := by
  constructor
  · intro j above
    rw [next] at above
    have absent := has.fresh j above
    have other : j ≠ i := by
      intro here
      rw [here, at_p] at absent
      cases absent
    rw [thread, Function.update_of_ne other]
    exact absent
  · intro k is_there
    obtain ⟨j, named, joinable⟩ := has.mine k is_there
    rw [id, thread]
    refine ⟨j, named, ?_⟩
    by_cases here : j = i
    · rw [here, at_p] at joinable
      change p.kind = k at joinable
      rw [here, Function.update_self, ← joinable]
      exact same
    · rw [Function.update_of_ne here]
      exact joinable
  · intro k j lives
    obtain ⟨p', at_p', kind⟩ := lives
    rw [id]
    rw [thread] at at_p'
    by_cases here : j = i
    · rw [here, Function.update_self] at at_p'
      rw [at_p'] at same
      rw [here]
      exact has.only k i ⟨p, at_p, same.symm.trans kind⟩
    · rw [Function.update_of_ne here] at at_p'
      exact has.only k j ⟨p', at_p', kind⟩

theorem Has.creates (has : Has s there) (k : Kind) (none : there k = false) :
    Has (s.pthread_create k) (Function.update there k true) := by
  obtain ⟨p, kind, thread⟩ : ∃ p : Running, p.kind = k ∧
      (s.pthread_create k).thread = Function.update s.thread s.next (.running p) := by
    cases k with
    | consumer => exact ⟨.begins, rfl, rfl⟩
    | transfer => exact ⟨.loops, rfl, rfl⟩
  have next : (s.pthread_create k).next = s.next + 1 := by
    cases k <;> rfl
  have named : (s.pthread_create k).id = Function.update s.id k (some s.next) := by
    funext k'
    cases k <;> cases k' <;> rfl
  constructor
  · intro j above
    rw [next] at above
    rw [thread, Function.update_of_ne (Nat.ne_of_gt above)]
    exact has.fresh j (Nat.le_of_succ_le above)
  · intro k' is_there
    rw [named, thread]
    by_cases here : k' = k
    · rw [here, Function.update_self]
      refine ⟨s.next, rfl, ?_⟩
      rw [Function.update_self]
      exact kind
    · rw [Function.update_of_ne here] at is_there ⊢
      obtain ⟨j, named_j, joinable⟩ := has.mine k' is_there
      have other : j ≠ s.next := by
        intro new
        rw [new, has.fresh _ (Nat.le_refl _)] at joinable
        exact joinable
      refine ⟨j, named_j, ?_⟩
      rw [Function.update_of_ne other]
      exact joinable
  · intro k' j lives
    obtain ⟨p', at_p', kind'⟩ := lives
    rw [thread] at at_p'
    rw [named]
    by_cases new : j = s.next
    · rw [new, Function.update_self] at at_p'
      cases at_p'
      rw [← kind', kind, new, Function.update_self, Function.update_self]
      exact ⟨rfl, rfl⟩
    · rw [Function.update_of_ne new] at at_p'
      obtain ⟨is_there, named_j⟩ := has.only k' j ⟨p', at_p', kind'⟩
      have other : k' ≠ k := by
        intro here
        rw [here, none] at is_there
        cases is_there
      rw [Function.update_of_ne other, Function.update_of_ne other]
      exact ⟨is_there, named_j⟩

theorem Has.joins (has : Has s there) (k : Kind) (is_there : there k = true)
    (joins : s.Joins (s.id k)) :
    (s.pthread_join (s.id k)).bad_join = s.bad_join ∧
      Has (s.pthread_join (s.id k)) (Function.update there k false) := by
  obtain ⟨i, named, joinable⟩ := has.mine k is_there
  have ended : s.thread i = .ended k := by
    cases at_i : s.thread i with
    | absent | joined =>
      rw [at_i] at joinable
      cases joinable
    | running p => exact absurd at_i (joins i named p)
    | ended k' =>
      rw [at_i] at joinable
      cases joinable
      rfl
  have join : s.pthread_join (s.id k) = s.move i .joined := by
    rw [named]
    simp only [State.pthread_join, ended]
  rw [join]
  refine ⟨rfl, ?_, ?_, ?_⟩
  · intro j above
    have absent := has.fresh j above
    have other : j ≠ i := by
      intro here
      rw [here, ended] at absent
      cases absent
    change Function.update s.thread i .joined j = _
    rw [Function.update_of_ne other]
    exact absent
  · intro k' is_there'
    have apart : k' ≠ k := by
      intro same
      rw [same, Function.update_self] at is_there'
      cases is_there'
    rw [Function.update_of_ne apart] at is_there'
    obtain ⟨j, named_j, joinable_j⟩ := has.mine k' is_there'
    refine ⟨j, named_j, ?_⟩
    have other : j ≠ i := by
      intro here
      rw [here, ended] at joinable_j
      exact apart joinable_j.symm
    change (Function.update s.thread i .joined j).Joinable k'
    rw [Function.update_of_ne other]
    exact joinable_j
  · intro k' j lives
    obtain ⟨p, at_p, kind⟩ := lives
    have other : j ≠ i := by
      intro here
      rw [here] at at_p
      change Function.update s.thread i .joined i = _ at at_p
      rw [Function.update_self] at at_p
      cases at_p
    change Function.update s.thread i .joined j = _ at at_p
    rw [Function.update_of_ne other] at at_p
    obtain ⟨is_there', named_j⟩ := has.only k' j ⟨p, at_p, kind⟩
    have apart : k' ≠ k := by
      intro same
      rw [same, named] at named_j
      cases named_j
      exact other rfl
    rw [Function.update_of_ne apart]
    exact ⟨is_there', named_j⟩

end Threads

/-- Which threads there are at each place, and what the flags are. -/
def State.At (s : State) (there : Kind → Bool) : Prop :=
  match s.place with
  | .idle | .starts | .sets_rx | .tests | .kills =>
    there = neither ∧ s.streaming = false ∧ s.stop_requested = false ∨
      there = both ∧ s.streaming = true
  | .streams | .sets_off | .closed =>
    there = neither ∧ s.streaming = false ∧ s.stop_requested = false
  | .prepares | .resets | .creates_consumer => there = neither ∧ s.streaming = true
  | .creates_transfer => there = consumer_only ∧ s.streaming = true
  | .requests | .cancels | .joins_transfer => there = both
  | .joins_consumer => there = consumer_only
  | .clears_request => there = neither
  | .clears_streaming => there = neither ∧ s.stop_requested = false

structure Inv (s : State) : Prop where
  joined : s.bad_join = false
  threads : ∃ there, Has s there ∧ s.At there
  stopped : ∀ success, s.returned = some (.stop_rx, success) →
    s.streaming = false ∧ (s.place = .idle ∨ s.place = .closed)

theorem Inv.start : Inv State.start where
  joined := rfl
  threads := by
    refine ⟨neither, ⟨fun _ _ => rfl, nofun, ?_⟩, .inl ⟨rfl, rfl, rfl⟩⟩
    intro k i lives
    obtain ⟨p, at_p, kind⟩ := lives
    cases at_p
  stopped := nofun

section Steps

variable {there : Kind → Bool}

theorem State.At.flags (at_p : s.At there) (lives : there k = true)
    (place : s'.place = s.place) (streams : s'.streaming = s.streaming ∨ s.place.killing = true) :
    s'.At there := by
  have some : there ≠ neither := by
    intro none
    rw [none] at lives
    cases lives
  unfold State.At at at_p ⊢
  rw [place]
  cases here : s.place with
  | idle | starts | sets_rx | tests | kills =>
    simp only [here] at at_p ⊢
    rcases at_p with ⟨none, -⟩ | ⟨all, on⟩
    · exact absurd none some
    · rcases streams with same | killing
      · exact .inr ⟨all, same.trans on⟩
      · rw [here] at killing
        cases killing
  | streams | sets_off | closed =>
    simp only [here] at at_p
    exact absurd at_p.1 some
  | prepares | resets | creates_consumer | clears_streaming =>
    simp only [here] at at_p
    exact absurd at_p.1 some
  | creates_transfer =>
    simp only [here] at at_p ⊢
    rcases streams with same | killing
    · exact ⟨at_p.1, same.trans at_p.2⟩
    · rw [here] at killing
      cases killing
  | requests | cancels | joins_transfer | joins_consumer =>
    simp only [here] at at_p ⊢
    exact at_p
  | clears_request =>
    simp only [here] at at_p
    exact absurd at_p some

theorem Inv.thread_step {t : Thread} (inv : Inv s) (at_p : s.thread i = .running p)
    (same : t.Joinable p.kind) (thread : s'.thread = Function.update s.thread i t)
    (streams : s'.streaming = s.streaming ∨ s.place.killing = true)
    (rest : s'.next = s.next ∧ s'.id = s.id ∧ s'.place = s.place ∧ s'.returned = s.returned ∧
      s'.bad_join = s.bad_join) : Inv s' := by
  obtain ⟨next, id, place, returned, joined⟩ := rest
  obtain ⟨there, has, at_place⟩ := inv.threads
  have lives := (has.only p.kind i ⟨p, at_p, rfl⟩).1
  constructor
  · exact joined.trans inv.joined
  · exact ⟨there, has.moves at_p same thread next id, at_place.flags lives place streams⟩
  · intro success stopped
    rw [returned] at stopped
    obtain ⟨off, stands⟩ := inv.stopped success stopped
    rw [place]
    rcases streams with same | killing
    · exact ⟨same.trans off, stands⟩
    · rcases stands with idle | closed
      · rw [idle] at killing
        cases killing
      · rw [closed] at killing
        cases killing

theorem Inv.consumer_loop (inv : Inv s) (at_p : s.thread i = .running p)
    (consumer : p.kind = .consumer) : Inv (s.consumer_loop i) := by
  unfold State.consumer_loop
  split
  · exact inv.thread_step (t := .ended .consumer) at_p consumer.symm rfl (.inl rfl) ⟨rfl, rfl, rfl, rfl, rfl⟩
  · split
    · exact inv.thread_step (t := .running .waits) at_p consumer.symm rfl (.inl rfl) ⟨rfl, rfl, rfl, rfl, rfl⟩
    · exact inv.thread_step (t := .running .converts) at_p consumer.symm rfl (.inl rfl) ⟨rfl, rfl, rfl, rfl, rfl⟩

theorem Inv.in_call {p : Place} (inv : Inv s) (at_p : s.place = p) (busy : p ≠ .idle ∧ p ≠ .closed)
    (success : Bool) : s.returned ≠ some (.stop_rx, success) := by
  intro stopped
  rcases (inv.stopped success stopped).2 with idle | closed
  · exact busy.1 (at_p.symm.trans idle)
  · exact busy.2 (at_p.symm.trans closed)

theorem Inv.user_step (inv : Inv s) (has : Has s there) (at_p : s'.At there)
    (rest : s'.thread = s.thread ∧ s'.next = s.next ∧ s'.id = s.id ∧ s'.bad_join = s.bad_join)
    (stopped : ∀ success, s'.returned = some (.stop_rx, success) →
      s'.streaming = false ∧ (s'.place = .idle ∨ s'.place = .closed)) : Inv s' := by
  obtain ⟨thread, next, id, joined⟩ := rest
  exact ⟨joined.trans inv.joined, ⟨there, has.stays thread next id, at_p⟩, stopped⟩

theorem Inv.call_step {p : Place} (inv : Inv s) (has : Has s there)
    (at_p : s.place = p) (busy : p ≠ .idle ∧ p ≠ .closed) (next_at : s'.At there)
    (rest : s'.thread = s.thread ∧ s'.next = s.next ∧ s'.id = s.id ∧ s'.bad_join = s.bad_join)
    (same : s'.returned = s.returned) : Inv s' := by
  apply inv.user_step has next_at rest
  intro success stopped
  rw [same] at stopped
  exact absurd stopped (inv.in_call at_p busy success)

theorem Inv.step {a : Act} (inv : Inv s) (meets : Meets s a) (step : Step s a s') : Inv s' := by
  obtain ⟨there, has, here⟩ := inv.threads
  have place := here
  unfold State.At at place
  cases step with
  | start_rx at_p =>
    simp only [at_p] at place
    exact inv.user_step has place ⟨rfl, rfl, rfl, rfl⟩ nofun
  | @mode_off success at_p =>
    simp only [at_p] at place
    cases success with
    | true =>
      exact inv.call_step has at_p ⟨nofun, nofun⟩ place ⟨rfl, rfl, rfl, rfl⟩ rfl
    | false => exact inv.user_step has place ⟨rfl, rfl, rfl, rfl⟩ nofun
  | @mode_rx success at_p =>
    simp only [at_p] at place
    cases success with
    | true =>
      exact inv.call_step has at_p ⟨nofun, nofun⟩ place ⟨rfl, rfl, rfl, rfl⟩ rfl
    | false => exact inv.user_step has place ⟨rfl, rfl, rfl, rfl⟩ nofun
  | test at_p =>
    simp only [at_p] at place
    rcases place with ⟨none, off, free⟩ | ⟨all, on⟩
    · rw [if_pos (by rw [off, free]; rfl)]
      exact inv.call_step has at_p ⟨nofun, nofun⟩ ⟨none, off, free⟩ ⟨rfl, rfl, rfl, rfl⟩ rfl
    · rw [if_neg (by rw [on]; nofun)]
      exact inv.user_step has (.inr ⟨all, on⟩) ⟨rfl, rfl, rfl, rfl⟩ nofun
  | stream at_p =>
    simp only [at_p] at place
    exact inv.call_step has at_p ⟨nofun, nofun⟩ ⟨place.1, rfl⟩ ⟨rfl, rfl, rfl, rfl⟩ rfl
  | prepare_transfers at_p =>
    cases meets
    simp only [at_p] at place
    exact inv.call_step has at_p ⟨nofun, nofun⟩ place ⟨rfl, rfl, rfl, rfl⟩ rfl
  | reset at_p =>
    simp only [at_p] at place
    exact inv.call_step has at_p ⟨nofun, nofun⟩ place ⟨rfl, rfl, rfl, rfl⟩ rfl
  | create_consumer at_p =>
    cases meets
    simp only [at_p] at place
    obtain ⟨rfl, on⟩ := place
    refine ⟨inv.joined, ⟨consumer_only, ?_, rfl, on⟩, fun b stopped => ?_⟩
    · have created := has.creates .consumer rfl
      have kinds : Function.update neither Kind.consumer true = consumer_only := by
        funext k
        cases k <;> rfl
      rw [kinds] at created
      exact created.stays rfl rfl rfl
    · exact absurd stopped (inv.in_call at_p ⟨nofun, nofun⟩ b)
  | create_transfer at_p =>
    cases meets
    simp only [at_p] at place
    obtain ⟨rfl, on⟩ := place
    refine ⟨inv.joined, ⟨both, ?_, .inr ⟨rfl, on⟩⟩, nofun⟩
    have created := has.creates .transfer rfl
    have kinds : Function.update consumer_only Kind.transfer true = both := by
      funext k
      cases k <;> rfl
    rw [kinds] at created
    exact created.stays rfl rfl rfl
  | stop_rx at_p | close at_p =>
    simp only [at_p] at place
    exact inv.user_step has place ⟨rfl, rfl, rfl, rfl⟩ nofun
  | kill at_p =>
    simp only [at_p] at place
    rcases place with ⟨none, off, free⟩ | ⟨all, on⟩
    · rw [if_neg (by rw [off]; nofun)]
      exact inv.call_step has at_p ⟨nofun, nofun⟩ ⟨none, off, free⟩ ⟨rfl, rfl, rfl, rfl⟩ rfl
    · rw [if_pos on]
      exact inv.call_step has at_p ⟨nofun, nofun⟩ all ⟨rfl, rfl, rfl, rfl⟩ rfl
  | request at_p | cancel at_p =>
    simp only [at_p] at place
    exact inv.call_step has at_p ⟨nofun, nofun⟩ place ⟨rfl, rfl, rfl, rfl⟩ rfl
  | join_transfer at_p joins =>
    simp only [at_p] at place
    subst place
    obtain ⟨joined, left⟩ := has.joins .transfer rfl joins
    have kinds : Function.update both Kind.transfer false = consumer_only := by
      funext k
      cases k <;> rfl
    rw [kinds] at left
    refine ⟨joined.trans inv.joined, ⟨consumer_only, left.stays rfl rfl rfl, rfl⟩,
      fun b stopped => ?_⟩
    rw [pthread_join_returned] at stopped
    exact absurd stopped (inv.in_call at_p ⟨nofun, nofun⟩ b)
  | join_consumer at_p joins =>
    simp only [at_p] at place
    subst place
    obtain ⟨joined, left⟩ := has.joins .consumer rfl joins
    have kinds : Function.update consumer_only Kind.consumer false = neither := by
      funext k
      cases k <;> rfl
    rw [kinds] at left
    refine ⟨joined.trans inv.joined, ⟨neither, left.stays rfl rfl rfl, rfl⟩,
      fun b stopped => ?_⟩
    rw [pthread_join_returned] at stopped
    exact absurd stopped (inv.in_call at_p ⟨nofun, nofun⟩ b)
  | clear_request at_p =>
    simp only [at_p] at place
    exact inv.call_step has at_p ⟨nofun, nofun⟩ ⟨place, rfl⟩ ⟨rfl, rfl, rfl, rfl⟩ rfl
  | clear_streaming at_p =>
    simp only [at_p] at place
    exact inv.call_step has at_p ⟨nofun, nofun⟩ ⟨place.1, rfl, place.2⟩ ⟨rfl, rfl, rfl, rfl⟩ rfl
  | leave at_p =>
    simp only [at_p] at place
    cases closing : s.closing with
    | true => exact inv.user_step has place ⟨rfl, rfl, rfl, rfl⟩ fun _ _ => ⟨place.2.1, .inr rfl⟩
    | false =>
      exact inv.user_step has (.inl place) ⟨rfl, rfl, rfl, rfl⟩
        fun _ _ => ⟨place.2.1, .inl rfl⟩
  | wake at_p stands =>
    apply inv.consumer_loop at_p
    rcases stands with rfl | rfl <;> rfl
  | finish at_p =>
    have counted : Inv { s with received_buffer_count := s.received_buffer_count - 1 } :=
      inv.user_step has here ⟨rfl, rfl, rfl, rfl⟩ inv.stopped
    exact counted.consumer_loop at_p rfl
  | callback at_p =>
    exact inv.thread_step (t := .running .returns) at_p rfl rfl (.inl rfl) ⟨rfl, rfl, rfl, rfl, rfl⟩
  | loop at_p =>
    refine inv.thread_step at_p ?_ rfl (.inl rfl) ⟨rfl, rfl, rfl, rfl, rfl⟩
    split <;> rfl
  | complete at_p | break_off at_p =>
    split
    · exact inv.thread_step at_p (by rfl) rfl (.inl rfl) ⟨rfl, rfl, rfl, rfl, rfl⟩
    · exact inv
  | receive at_p =>
    exact inv.thread_step at_p (by rfl) rfl (.inl rfl) ⟨rfl, rfl, rfl, rfl, rfl⟩
  | resubmit at_p | handled at_p =>
    refine inv.thread_step at_p (by rfl) rfl ?_ ⟨rfl, rfl, rfl, rfl, rfl⟩
    rcases meets with rfl | killing
    · exact .inl rfl
    · exact .inr killing
  | fail at_p =>
    exact inv.thread_step at_p (by rfl) rfl (.inr meets) ⟨rfl, rfl, rfl, rfl, rfl⟩

theorem can_start (idle : s.place = .idle) (off : s.streaming = false)
    (free : s.stop_requested = false) :
    ∃ s', Runs Step Meets s s' ∧ s'.returned = some (.start_rx, true) := by
  have start : Runs Step Meets s s := .refl
  have tested := ((((start.tail (a := Act.start_rx) (.start_rx idle) trivial).tail
    (a := Act.mode_off true) (.mode_off rfl) trivial).tail
    (a := Act.mode_rx true) (.mode_rx rfl) trivial).tail (a := Act.test) (.test rfl) trivial)
  simp only [if_true, off, free] at tested
  have created := ((((tested.tail (a := Act.stream) (.stream rfl) trivial).tail
    (a := Act.prepare_transfers true) (.prepare_transfers rfl) rfl).tail
    (a := Act.reset) (.reset rfl) trivial).tail
    (a := Act.create_consumer true) (.create_consumer rfl) rfl).tail
    (a := Act.create_transfer true) (.create_transfer rfl) rfl
  exact ⟨_, created, rfl⟩

theorem Inv.lifeCycle (inv : Inv s) : LifeCycle Meets s := by
  obtain ⟨there, has, place⟩ := inv.threads
  refine ⟨?_, inv.joined, ?_, ?_⟩
  · intro k i j lives_i lives_j
    have named_i := (has.only k i lives_i).2
    have named_j := (has.only k j lives_j).2
    exact Option.some.inj (named_i.symm.trans named_j)
  · intro success stopped k i lives
    have is_there := (has.only k i lives).1
    obtain ⟨off, idle | closed⟩ := inv.stopped success stopped
    · simp only [State.At, idle, off] at place
      rcases place with ⟨rfl, -⟩ | ⟨-, on⟩
      · cases is_there
      · cases on
    · simp only [State.At, closed] at place
      rw [place.1] at is_there
      cases is_there
  · intro success stopped idle
    have off := (inv.stopped success stopped).1
    simp only [State.At, idle, off] at place
    rcases place with ⟨-, -, free⟩ | ⟨-, on⟩
    · exact can_start idle off free
    · cases on

end Steps

/-- When the start of streaming does not fail half-way and nothing fails while streaming, the
    threads are joined as they were created. -/
theorem threads_joined (run : Runs Step Meets State.start s) : LifeCycle Meets s := by
  have inv : Inv s := run.keeps (fun _ _ _ inv meets step => inv.step meets step) Inv.start
  exact inv.lifeCycle

section Runs

theorem started_stopped : ∃ s : State, s.returned = some (.stop_rx, true) ∧ s.next = 2 ∧
    LifeCycle Meets s := by
  have start : Runs Step Meets State.start State.start := .refl
  have created := ((((((((start.tail (a := Act.start_rx) (.start_rx rfl) trivial).tail
    (a := Act.mode_off true) (.mode_off rfl) trivial).tail
    (a := Act.mode_rx true) (.mode_rx rfl) trivial).tail (a := Act.test) (.test rfl) trivial).tail
    (a := Act.stream) (.stream rfl) trivial).tail
    (a := Act.prepare_transfers true) (.prepare_transfers rfl) rfl).tail
    (a := Act.reset) (.reset rfl) trivial).tail
    (a := Act.create_consumer true) (.create_consumer rfl) rfl).tail
    (a := Act.create_transfer true) (.create_transfer rfl) rfl
  have ended := (((((created.tail (a := Act.stop_rx) (.stop_rx rfl) trivial).tail
    (a := Act.kill) (.kill rfl) trivial).tail (a := Act.request) (.request rfl) trivial).tail
    (a := Act.cancel) (.cancel rfl) trivial).tail (a := Act.loop 1) (.loop rfl) trivial).tail
    (a := Act.wake 0) (.wake rfl (.inl rfl)) trivial
  have joined := (ended.tail (a := Act.join_transfer) (.join_transfer rfl nofun) trivial).tail
    (a := Act.join_consumer) (.join_consumer rfl nofun) trivial
  have left := ((joined.tail (a := Act.clear_request) (.clear_request rfl) trivial).tail
    (a := Act.clear_streaming) (.clear_streaming rfl) trivial).tail
    (a := Act.leave true) (.leave rfl) trivial
  exact ⟨_, rfl, rfl, threads_joined left⟩

/-- The event handling fails while the consumer waits. `airspy_stop_rx` returns, and the consumer
    still waits. -/
theorem consumer_left_behind :
    ¬ ∀ s, Runs Step (fun _ _ => True) State.start s → LifeCycle (fun _ _ => True) s := by
  intro holds
  have start : Runs Step (fun _ _ => True) State.start State.start := .refl
  have created := ((((((((start.tail (a := Act.start_rx) (.start_rx rfl) trivial).tail
    (a := Act.mode_off true) (.mode_off rfl) trivial).tail
    (a := Act.mode_rx true) (.mode_rx rfl) trivial).tail (a := Act.test) (.test rfl) trivial).tail
    (a := Act.stream) (.stream rfl) trivial).tail
    (a := Act.prepare_transfers true) (.prepare_transfers rfl) trivial).tail
    (a := Act.reset) (.reset rfl) trivial).tail
    (a := Act.create_consumer true) (.create_consumer rfl) trivial).tail
    (a := Act.create_transfer true) (.create_transfer rfl) trivial
  have failed := ((created.tail (a := Act.wake 0) (.wake rfl (.inl rfl)) trivial).tail
    (a := Act.loop 1) (.loop rfl) trivial).tail
    (a := Act.handled 1 false) (.handled rfl) trivial
  have left := ((failed.tail (a := Act.stop_rx) (.stop_rx rfl) trivial).tail
    (a := Act.kill) (.kill rfl) trivial).tail (a := Act.leave true) (.leave rfl)
  exact (holds _ left).ended true rfl .consumer 0 ⟨.waits, rfl, rfl⟩

end Runs

end Soapy.Receive.Airspy.Threads
