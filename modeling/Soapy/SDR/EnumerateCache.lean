import Soapy.SDR.Factory

/-! # The cache of Device::enumerate

What the find functions returned is kept for each driver and each set of arguments, with the time
at which it was asked for. A future is the number of the invocation that it stands for, and what
an invocation ends with is arbitrary.
-/

namespace Soapy.SDR

open Lib
open Soapy.Remote (Kwargs Exn)

/-- One second, in nanoseconds. -/
def CACHE_TIMEOUT : Int := 1000000000

/-- The time stamp, and the future when there is one. -/
structure CacheEntry where
  first : Int
  second : Option Nat

/-- What `operator[]` makes. -/
def CacheEntry.unset : CacheEntry := ⟨0, none⟩

/-- A driver and the arguments of the search. -/
abbrev CacheKey := Bytes ×ₗ Kwargs

/-- A call of a find function, with the entry that the cache had for it at that time. -/
structure Invocation where
  driver : Bytes
  args : Kwargs
  cacheEntry : CacheEntry
  checked : Int

/-- The cache, and every call of a find function so far. -/
structure Enumerator where
  cache : OrdMap CacheKey CacheEntry
  invocations : List Invocation

/-- The clock when a driver's entry is checked, and when a new one is stored. -/
structure Readings where
  checked : Int
  stored : Int

/-- A call of `Device::enumerate`: the arguments, the clock when the cache is cleaned, and
    the find functions that are registered, in the order of their names. -/
structure EnumerateCall where
  args : Kwargs
  now : Int
  findFunctions : OrdMap Bytes Readings

def Enumerator.init : Enumerator := ⟨.empty, []⟩

def skipped (args : Kwargs) (driver : Bytes) : Bool :=
  match args.find? (ascii "driver") with
  | some specified => specified ≠ driver
  | none => false

/-- `handle["driver"] = it.first`. -/
def tagged (driver : Bytes) (handle : Kwargs) : Kwargs := handle.insert (ascii "driver") driver

def Enumerator.clean (s : Enumerator) (now : Int) : Enumerator :=
  { s with cache := s.cache.eraseAll (s.cache.keysWhere (fun e => e.first + CACHE_TIMEOUT < now)) }

def Enumerator.create (s : Enumerator) (args : Kwargs) (driver : Bytes) (times : Readings) :
    Enumerator :=
  let key : CacheKey := toLex (driver, args)
  { cache := s.cache.insert key ⟨times.stored, some s.invocations.length⟩
    invocations := s.invocations ++
      [⟨driver, args, (s.cache.find? key).getD .unset, times.checked⟩] }

/-- The turn of one driver, with the futures so far. -/
def launch (args : Kwargs) (s : Enumerator × OrdMap Bytes Nat) (it : Bytes × Readings) :
    Enumerator × OrdMap Bytes Nat :=
  if skipped args it.1 then s
  else
    let cacheEntry := (s.1.cache.find? (toLex (it.1, args))).getD .unset
    match cacheEntry.second with
    | some future =>
      if cacheEntry.first > it.2.checked then (s.1, s.2.insert it.1 future)
      else (s.1.create args it.1 it.2, s.2.insert it.1 s.1.invocations.length)
    | none => (s.1.create args it.1 it.2, s.2.insert it.1 s.1.invocations.length)

/-- What a find function returned, tagged. One that threw is only logged. -/
def handles (outcome : Nat → Except Exn (List Kwargs)) (driver : Bytes) (future : Nat) :
    List Kwargs :=
  match outcome future with
  | .ok found => found.map (tagged driver)
  | .error _ => []

def enumerate (outcome : Nat → Except Exn (List Kwargs)) (s : Enumerator) (call : EnumerateCall) :
    List Kwargs × Enumerator :=
  let launched := call.findFunctions.entries.foldl (launch call.args) (s.clean call.now, .empty)
  (launched.2.entries.flatMap (fun it => handles outcome it.1 it.2), launched.1)

def enumerated (outcome : Nat → Except Exn (List Kwargs)) (calls : List EnumerateCall) :
    Enumerator :=
  calls.foldl (fun s call => (enumerate outcome s call).2) .init

/-- A driver's turn in a call. -/
structure Ask where
  driver : Bytes
  args : Kwargs
  checked : Int
  stored : Int

def Ask.key (a : Ask) : CacheKey := toLex (a.driver, a.args)

def asksOf (args : Kwargs) (its : List (Bytes × Readings)) : List Ask :=
  (its.filter (fun it => !skipped args it.1)).map
    (fun it => ⟨it.1, args, it.2.checked, it.2.stored⟩)

def EnumerateCall.asks (call : EnumerateCall) : List Ask :=
  asksOf call.args call.findFunctions.entries

def readings (asks : List Ask) : List Int := asks.flatMap (fun a => [a.checked, a.stored])

def clock (calls : List EnumerateCall) : List Int :=
  calls.flatMap (fun call => call.now :: readings call.asks)

/-- A driver is asked with the same arguments again a second later or more. -/
def Apart (a b : Ask) : Prop := a.key = b.key → a.stored + CACHE_TIMEOUT ≤ b.checked

/-- What is promised of one call of a find function. -/
def Invocation.Needed (i : Invocation) : Prop :=
  i.cacheEntry.second.isSome → i.cacheEntry.first + CACHE_TIMEOUT ≤ i.checked

structure Caches (outcome : Nat → Except Exn (List Kwargs)) (calls : List EnumerateCall) :
    Prop where
  /-- What was too old at the start of a call is no longer there behind it. -/
  dropped : ∀ front call, front ++ [call] <+: calls →
    ∀ e ∈ (enumerated outcome (front ++ [call])).cache.entries, call.now ≤ e.2.first + CACHE_TIMEOUT
  /-- No driver is asked while its entry is young. -/
  spared : ∀ i ∈ (enumerated outcome calls).invocations, i.Needed
  /-- A call returns what the recorded invocations found. -/
  results : ∀ front call, front ++ [call] <+: calls →
    ∃ future : Bytes → Nat,
      (enumerate outcome (enumerated outcome front) call).1 =
        call.asks.flatMap (fun a => handles outcome a.driver (future a.driver)) ∧
      ∀ a ∈ call.asks, ∃ e i, e.second = some (future a.driver) ∧
        (enumerated outcome (front ++ [call])).cache.find? a.key = some e ∧
        (enumerated outcome (front ++ [call])).invocations[future a.driver]? = some i ∧
        i.driver = a.driver ∧ i.args = a.args

theorem asksOf_append (args : Kwargs) (front rest : List (Bytes × Readings)) :
    asksOf args (front ++ rest) = asksOf args front ++ asksOf args rest := by
  rw [asksOf, List.filter_append, List.map_append]
  rfl

/-- The cache after some turns, `last` is the last reading of the clock. -/
structure Known (done : List Ask) (last : Int) (s : Enumerator) : Prop where
  earlier : ∀ a ∈ done, a.stored ≤ last
  recorded : ∀ k e, s.cache.find? k = some e → ∃ a ∈ done, a.key = k ∧ e.first = a.stored
  futures : ∀ k e, s.cache.find? k = some e → ∃ n i, e.second = some n ∧
    s.invocations[n]? = some i ∧ i.driver = k.1 ∧ i.args = k.2
  kept : ∀ a ∈ done, last ≤ a.stored + CACHE_TIMEOUT →
    ∃ e, s.cache.find? a.key = some e ∧ a.stored ≤ e.first
  spared : (∀ i ∈ s.invocations, i.Needed) ↔ done.Pairwise Apart

theorem known_init (last : Int) : Known [] last .init where
  earlier _ member := absurd member List.not_mem_nil
  recorded _ _ found := absurd found (by simp [Enumerator.init])
  futures _ _ found := absurd found (by simp [Enumerator.init])
  kept _ member := absurd member List.not_mem_nil
  spared := by simp [Enumerator.init]

theorem find?_clean (s : Enumerator) (now : Int) (k : CacheKey) (e : CacheEntry) :
    (s.clean now).cache.find? k = some e ↔
      s.cache.find? k = some e ∧ now ≤ e.first + CACHE_TIMEOUT := by
  have erased := s.cache.find?_eraseAll
    (s.cache.keysWhere (fun e => e.first + CACHE_TIMEOUT < now)) k
  have member := s.cache.mem_keysWhere (fun e => e.first + CACHE_TIMEOUT < now) k
  rw [Enumerator.clean, erased]
  split
  · rename_i inside
    obtain ⟨v, found, expired⟩ := member.mp inside
    have old : v.first + CACHE_TIMEOUT < now := by simpa using expired
    constructor
    · intro none
      cases none
    · rintro ⟨found', young⟩
      rw [found] at found'
      cases found'
      omega
  · rename_i outside
    constructor
    · intro found
      have young : ¬ e.first + CACHE_TIMEOUT < now := fun old =>
        outside (member.mpr ⟨e, found, by simpa using old⟩)
      exact ⟨found, by omega⟩
    · exact And.left

section Create

variable (s : Enumerator) (a : Ask)

theorem find?_created : (s.create a.args a.driver ⟨a.checked, a.stored⟩).cache.find? a.key =
    some ⟨a.stored, some s.invocations.length⟩ :=
  (s.cache.find?_insert a.key a.key _).trans (if_pos rfl)

theorem find?_create_other {k : CacheKey} (other : k ≠ a.key) :
    (s.create a.args a.driver ⟨a.checked, a.stored⟩).cache.find? k = s.cache.find? k :=
  (s.cache.find?_insert a.key k _).trans (if_neg other)

variable {s a}

theorem find?_create {k : CacheKey} {e : CacheEntry}
    (found : (s.create a.args a.driver ⟨a.checked, a.stored⟩).cache.find? k = some e) :
    k = a.key ∧ e = ⟨a.stored, some s.invocations.length⟩ ∨ s.cache.find? k = some e := by
  rcases eq_or_ne k a.key with rfl | other
  · rw [find?_created, Option.some.injEq] at found
    exact .inl ⟨rfl, found.symm⟩
  · rw [find?_create_other s a other] at found
    exact .inr found

end Create

namespace Known

variable {done : List Ask} {last : Int} {s : Enumerator}

theorem clean (known : Known done last s) {now : Int} (later : last ≤ now) :
    Known done now (s.clean now) where
  earlier a member := (known.earlier a member).trans later
  recorded k e found := known.recorded k e ((find?_clean s now k e).mp found).1
  futures k e found := known.futures k e ((find?_clean s now k e).mp found).1
  kept a member young := by
    obtain ⟨e, found, newer⟩ := known.kept a member (later.trans young)
    exact ⟨e, (find?_clean s now a.key e).mpr ⟨found, by omega⟩, newer⟩
  spared := known.spared

theorem needed_iff (known : Known done last s) {a : Ask} (later : last ≤ a.checked) :
    Invocation.Needed ⟨a.driver, a.args, (s.cache.find? a.key).getD .unset, a.checked⟩ ↔
      ∀ b ∈ done, Apart b a := by
  constructor
  · intro needed b member same
    by_contra young
    obtain ⟨e, found, newer⟩ := known.kept b member (by omega)
    obtain ⟨n, i, valid, _⟩ := known.futures b.key e found
    rw [same] at found
    have old : e.first + CACHE_TIMEOUT ≤ a.checked := by
      simpa [Invocation.Needed, found, valid] using needed
    omega
  · intro apart some
    cases found : s.cache.find? a.key with
    | none =>
      rw [found] at some
      cases some
    | some e =>
      obtain ⟨b, member, same, stored⟩ := known.recorded a.key e found
      have old := apart b member same
      simpa [← stored] using old

theorem create (known : Known done last s) {a : Ask} (checked : last ≤ a.checked)
    (stored : a.checked ≤ a.stored) :
    Known (done ++ [a]) a.stored (s.create a.args a.driver ⟨a.checked, a.stored⟩) := by
  have invocations : (s.create a.args a.driver ⟨a.checked, a.stored⟩).invocations =
      s.invocations ++ [⟨a.driver, a.args, (s.cache.find? a.key).getD .unset, a.checked⟩] := rfl
  constructor
  · intro b member
    rcases List.mem_append.mp member with member | member
    · have before := known.earlier b member
      omega
    · rw [List.mem_singleton.mp member]
  · intro k e found
    rcases find?_create found with ⟨rfl, rfl⟩ | found
    · exact ⟨a, List.mem_append_right _ List.mem_cons_self, rfl, rfl⟩
    · obtain ⟨b, member, rest⟩ := known.recorded k e found
      exact ⟨b, List.mem_append_left _ member, rest⟩
  · intro k e found
    rw [invocations]
    rcases find?_create found with ⟨rfl, rfl⟩ | found
    · exact ⟨_, _, rfl, List.getElem?_concat_length, rfl, rfl⟩
    · obtain ⟨n, i, valid, place, rest⟩ := known.futures k e found
      have inside : n < s.invocations.length := (List.getElem?_eq_some_iff.mp place).1
      exact ⟨n, i, valid, by rw [List.getElem?_append_left inside, place], rest⟩
  · intro b member young
    have before : b.stored ≤ a.stored := by
      rcases List.mem_append.mp member with member | member
      · have before := known.earlier b member
        omega
      · rw [List.mem_singleton.mp member]
    rcases eq_or_ne b.key a.key with same | other
    · rw [same]
      exact ⟨_, find?_created s a, before⟩
    · rcases List.mem_append.mp member with member | member
      · rw [find?_create_other s a other]
        exact known.kept b member (by omega)
      · rw [List.mem_singleton.mp member] at other
        exact absurd rfl other
  · have now := known.needed_iff checked
    rw [invocations, List.pairwise_append, List.forall_mem_append, known.spared]
    simp [now]

theorem launch (known : Known done last s) {args : Kwargs} {it : Bytes × Readings}
    (futures : OrdMap Bytes Nat) (asked : skipped args it.1 = false) (later : last ≤ it.2.checked) :
    launch args (s, futures) it =
      (s.create args it.1 it.2, futures.insert it.1 s.invocations.length) := by
  cases found : s.cache.find? (toLex (it.1, args)) with
  | none => simp [SDR.launch, asked, found, CacheEntry.unset]
  | some e =>
    obtain ⟨b, member, _, stored⟩ := known.recorded _ e found
    obtain ⟨n, _, valid, _⟩ := known.futures _ e found
    have before := known.earlier b member
    have past : ¬ e.first > it.2.checked := by omega
    simp [SDR.launch, asked, found, valid, past]

end Known

/-- Inside a call that cleaned the cache at `now`, behind the turns of the drivers in front. -/
structure Launching (args : Kwargs) (now : Int) (done : List Ask)
    (front : List (Bytes × Readings)) (last : Int) (s : Enumerator × OrdMap Bytes Nat) : Prop where
  known : Known (done ++ asksOf args front) last s.1
  started : now ≤ last
  fresh : ∀ k e, s.1.cache.find? k = some e → now ≤ e.first + CACHE_TIMEOUT
  drivers : s.2.entries.map Prod.fst = (asksOf args front).map Ask.driver
  current : ∀ it ∈ s.2.entries, ∃ e, e.second = some it.2 ∧
    s.1.cache.find? (toLex (it.1, args)) = some e

section Call

variable {args : Kwargs} {now last : Int} {done : List Ask} {front : List (Bytes × Readings)}
  {s : Enumerator × OrdMap Bytes Nat} {later : List Int}

theorem Launching.below (launching : Launching args now done front last s) {driver : Bytes}
    (order : ∀ it ∈ front, it.1 < driver) : ∀ it ∈ s.2.entries, it.1 < driver := by
  intro it member
  have asked : it.1 ∈ (asksOf args front).map Ask.driver :=
    launching.drivers ▸ List.mem_map_of_mem member
  simp only [asksOf, List.map_map, List.mem_map, List.mem_filter] at asked
  obtain ⟨it', ⟨member', _⟩, same⟩ := asked
  exact same ▸ order it' member'

theorem Launching.step (launching : Launching args now done front last s)
    {it : Bytes × Readings} (order : ∀ it' ∈ front, it'.1 < it.1)
    (times : (last :: (readings (asksOf args [it]) ++ later)).Pairwise (· ≤ ·)) :
    ∃ last', Launching args now done (front ++ [it]) last' (launch args s it) ∧
      (last' :: later).Pairwise (· ≤ ·) := by
  cases asked : skipped args it.1 with
  | true =>
    have none : asksOf args [it] = [] := by simp [asksOf, asked]
    have same : launch args s it = s := by simp [launch, asked]
    have more : asksOf args (front ++ [it]) = asksOf args front := by
      rw [asksOf_append, none, List.append_nil]
    rw [none] at times
    refine ⟨last, ?_, times⟩
    rw [same]
    constructor
    · rw [more]
      exact launching.known
    · exact launching.started
    · exact launching.fresh
    · rw [more]
      exact launching.drivers
    · exact launching.current
  | false =>
    have one : asksOf args [it] = [⟨it.1, args, it.2.checked, it.2.stored⟩] := by
      simp [asksOf, asked]
    rw [one] at times
    obtain ⟨first, rest⟩ := List.pairwise_cons.mp times
    obtain ⟨second, after⟩ := List.pairwise_cons.mp rest
    have checked : last ≤ it.2.checked := first _ List.mem_cons_self
    have stored : it.2.checked ≤ it.2.stored := second _ List.mem_cons_self
    have started := launching.started
    have entries := s.2.insert_above it.1 s.1.invocations.length (launching.below order)
    have launched := launching.known.launch s.2 asked checked
    refine ⟨it.2.stored, ?_, after⟩
    rw [show s = (s.1, s.2) from rfl, launched]
    have created := launching.known.create (a := ⟨it.1, args, it.2.checked, it.2.stored⟩)
      checked stored
    constructor
    · rw [asksOf_append, one, ← List.append_assoc]
      exact created
    · omega
    · intro k e found
      rcases find?_create (a := ⟨it.1, args, it.2.checked, it.2.stored⟩) found with
        ⟨_, rfl⟩ | found
      · show now ≤ it.2.stored + CACHE_TIMEOUT
        unfold CACHE_TIMEOUT
        omega
      · exact launching.fresh k e found
    · rw [entries, asksOf_append, one, List.map_append, List.map_append, launching.drivers]
      rfl
    · intro it' member
      rw [entries] at member
      rcases List.mem_append.mp member with member | member
      · obtain ⟨e, valid, found⟩ := launching.current it' member
        have other : (toLex (it'.1, args) : CacheKey) ≠ toLex (it.1, args) := by
          intro same
          have name : it'.1 = it.1 := (Prod.mk.inj (toLex.injective same)).1
          exact absurd name (ne_of_lt (launching.below order it' member))
        have still := find?_create_other s.1 ⟨it.1, args, it.2.checked, it.2.stored⟩ other
        exact ⟨e, valid, still.trans found⟩
      · cases List.mem_singleton.mp member
        exact ⟨_, rfl, find?_created s.1 ⟨it.1, args, it.2.checked, it.2.stored⟩⟩

theorem Launching.all (launching : Launching args now done front last s)
    {rest : List (Bytes × Readings)} (order : (front ++ rest).Pairwise (fun it it' => it.1 < it'.1))
    (times : (last :: (readings (asksOf args rest) ++ later)).Pairwise (· ≤ ·)) :
    ∃ last', Launching args now done (front ++ rest) last' (rest.foldl (launch args) s) ∧
      (last' :: later).Pairwise (· ≤ ·) := by
  induction rest generalizing front s last with
  | nil =>
    rw [List.append_nil]
    exact ⟨last, launching, times⟩
  | cons it rest ih =>
    have below : ∀ it' ∈ front, it'.1 < it.1 := fun it' member =>
      (List.pairwise_append.mp order).2.2 it' member it List.mem_cons_self
    have split : readings (asksOf args (it :: rest)) =
        readings (asksOf args [it]) ++ readings (asksOf args rest) := by
      rw [← List.singleton_append, asksOf_append, readings, List.flatMap_append]
      rfl
    have next : front ++ it :: rest = (front ++ [it]) ++ rest := by simp
    rw [split, List.append_assoc] at times
    rw [next] at order ⊢
    obtain ⟨last', stepped, times'⟩ := launching.step below times
    exact ih stepped order times'

end Call

variable (outcome : Nat → Except Exn (List Kwargs))

theorem call_known {done : List Ask} {last : Int} {s : Enumerator} (known : Known done last s)
    (call : EnumerateCall) {later : List Int}
    (times : (last :: (call.now :: readings call.asks ++ later)).Pairwise (· ≤ ·)) :
    ∃ last' futures, Launching call.args call.now done call.findFunctions.entries last'
        ((enumerate outcome s call).2, futures) ∧
      (enumerate outcome s call).1 = futures.entries.flatMap (fun it => handles outcome it.1 it.2) ∧
      (last' :: later).Pairwise (· ≤ ·) := by
  obtain ⟨first, rest⟩ := List.pairwise_cons.mp times
  have start : last ≤ call.now := first _ List.mem_cons_self
  have cleaned : Launching call.args call.now done [] call.now (s.clean call.now, .empty) := by
    constructor
    · exact (List.append_nil done).symm ▸ known.clean start
    · exact le_refl _
    · exact fun k e found => ((find?_clean s call.now k e).mp found).2
    · rfl
    · exact fun it member => absurd member List.not_mem_nil
  obtain ⟨last', launched, times'⟩ := cleaned.all call.findFunctions.sorted rest
  exact ⟨last', _, launched, rfl, times'⟩

theorem enumerated_concat (calls : List EnumerateCall) (call : EnumerateCall) :
    enumerated outcome (calls ++ [call]) =
      (enumerate outcome (enumerated outcome calls) call).2 := by
  rw [enumerated, List.foldl_append]
  rfl

theorem clock_concat (calls : List EnumerateCall) (call : EnumerateCall) :
    clock (calls ++ [call]) = clock calls ++ call.now :: readings call.asks := by
  rw [clock, List.flatMap_append, List.flatMap_singleton]
  rfl

theorem run_known (calls : List EnumerateCall) {later : List Int}
    (times : (clock calls ++ later).Pairwise (· ≤ ·)) :
    ∃ last, Known (calls.flatMap EnumerateCall.asks) last (enumerated outcome calls) ∧
      (last :: later).Pairwise (· ≤ ·) := by
  induction calls using List.reverseRecOn generalizing later with
  | nil =>
    cases later with
    | nil => exact ⟨0, known_init 0, List.pairwise_singleton _ _⟩
    | cons t later =>
      have first := (List.pairwise_cons.mp times).1
      refine ⟨t, known_init t, List.pairwise_cons.mpr ⟨?_, times⟩⟩
      intro t' member
      cases member with
      | head => exact le_refl _
      | tail _ member => exact first t' member
  | append_singleton calls call ih =>
    rw [clock_concat, List.append_assoc] at times
    obtain ⟨last, known, times'⟩ := ih times
    obtain ⟨last', _, launched, _, times''⟩ := call_known outcome known call times'
    refine ⟨last', ?_, times''⟩
    rw [enumerated_concat, List.flatMap_append, List.flatMap_singleton]
    exact launched.known

theorem call_results {front : List EnumerateCall} {call : EnumerateCall}
    (times : (clock (front ++ [call])).Pairwise (· ≤ ·)) :
    (∀ e ∈ (enumerated outcome (front ++ [call])).cache.entries,
      call.now ≤ e.2.first + CACHE_TIMEOUT) ∧
    ∃ future : Bytes → Nat,
      (enumerate outcome (enumerated outcome front) call).1 =
        call.asks.flatMap (fun a => handles outcome a.driver (future a.driver)) ∧
      ∀ a ∈ call.asks, ∃ e i, e.second = some (future a.driver) ∧
        (enumerated outcome (front ++ [call])).cache.find? a.key = some e ∧
        (enumerated outcome (front ++ [call])).invocations[future a.driver]? = some i ∧
        i.driver = a.driver ∧ i.args = a.args := by
  rw [clock_concat] at times
  obtain ⟨last, known, times'⟩ := run_known outcome front times
  rw [← List.append_nil (call.now :: readings call.asks)] at times'
  obtain ⟨last', futures, launched, results, _⟩ := call_known outcome known call times'
  rw [enumerated_concat]
  constructor
  · intro e member
    exact launched.fresh e.1 e.2 ((OrdMap.find?_eq_some_iff _ _ _).mpr member)
  · have drivers : futures.entries.map Prod.fst = call.asks.map Ask.driver := launched.drivers
    have found : ∀ it ∈ futures.entries, (futures.find? it.1).getD 0 = it.2 := by
      intro it member
      rw [(futures.find?_eq_some_iff it.1 it.2).mpr member]
      rfl
    refine ⟨fun driver => (futures.find? driver).getD 0, ?_, ?_⟩
    · have by_driver : futures.entries.flatMap (fun it => handles outcome it.1 it.2) =
          (futures.entries.map Prod.fst).flatMap
            (fun driver => handles outcome driver ((futures.find? driver).getD 0)) := by
        rw [List.flatMap_map]
        exact List.flatMap_congr fun it member => by rw [found it member]
      rw [results, by_driver, drivers, List.flatMap_map]
    · intro a member
      have asked : a.driver ∈ futures.entries.map Prod.fst :=
        drivers ▸ List.mem_map_of_mem member
      obtain ⟨it, inside, same⟩ := List.mem_map.mp asked
      obtain ⟨e, valid, entry⟩ := launched.current it inside
      have args : a.args = call.args := by
        obtain ⟨it', _, rfl⟩ := List.mem_map.mp member
        rfl
      have key : a.key = toLex (it.1, call.args) := by rw [Ask.key, ← same, args]
      rw [← key] at entry
      obtain ⟨n, i, valid', place, driver, args'⟩ := launched.known.futures a.key e entry
      rw [valid, Option.some.injEq] at valid'
      subst valid'
      beta_reduce
      rw [← same, found it inside]
      exact ⟨e, i, valid, entry, place, driver.trans same.symm, args'⟩

/-- The cache drops what is old and returns what it recorded. It spares a driver only while nobody
    asks: no driver is asked again with the same arguments within a second. -/
theorem caches_iff (calls : List EnumerateCall) (times : (clock calls).Pairwise (· ≤ ·)) :
    Caches outcome calls ↔ (calls.flatMap EnumerateCall.asks).Pairwise Apart := by
  have whole := times
  rw [← List.append_nil (clock calls)] at whole
  obtain ⟨_, known, _⟩ := run_known outcome calls whole
  have front_times : ∀ front call, front ++ [call] <+: calls →
      (clock (front ++ [call])).Pairwise (· ≤ ·) := by
    rintro front call ⟨rest, rfl⟩
    rw [clock, List.flatMap_append] at times
    exact (List.pairwise_append.mp times).1
  constructor
  · intro caches
    exact known.spared.mp caches.spared
  · intro apart
    constructor
    · exact fun front call inside => (call_results outcome (front_times front call inside)).1
    · exact known.spared.mpr apart
    · exact fun front call inside => (call_results outcome (front_times front call inside)).2

def searchAt (time : Int) : EnumerateCall :=
  ⟨.empty, time, OrdMap.empty.insert (ascii "rtlsdr") ⟨time, time⟩⟩

theorem asks_searchAt (time : Int) :
    (searchAt time).asks = [⟨ascii "rtlsdr", .empty, time, time⟩] := rfl

theorem clock_searches (time later : Int) : clock [searchAt time, searchAt later] =
    [time, time, time, later, later, later] := rfl

theorem caches_two_seconds : Caches (fun _ => .ok []) [searchAt 0, searchAt 2000000000] :=
  (caches_iff _ _ (by simp [clock_searches])).mpr
    (by simp [asks_searchAt, Apart, Ask.key, CACHE_TIMEOUT])

/-- Two searches within a millisecond ask the driver twice. -/
theorem asked_twice : (clock [searchAt 0, searchAt 1000000]).Pairwise (· ≤ ·) ∧
    ¬ Caches (fun _ => .ok []) [searchAt 0, searchAt 1000000] := by
  have times : (clock [searchAt 0, searchAt 1000000]).Pairwise (· ≤ ·) := by
    simp [clock_searches]
  have whole := times
  rw [← List.append_nil (clock _)] at whole
  obtain ⟨_, known, _⟩ := run_known (fun _ => .ok []) [searchAt 0, searchAt 1000000] whole
  refine ⟨times, fun caches => ?_⟩
  have apart := known.spared.mp caches.spared
  simp [asks_searchAt, Apart, Ask.key, CACHE_TIMEOUT] at apart

end Soapy.SDR
