import Soapy.Lib.Bytes

/-! # The sample list of `rtl_tcp`

The callback of the device puts each buffer at the end of a list, and the worker takes the whole
list and sends it. The list holds only so many buffers; then the oldest one is left out.
-/

namespace Soapy.Rtl.Tcp

open Lib

/-- What the device delivers. Its library counts the bytes in an `int`. -/
structure Buffer where
  bytes : Bytes
  few : bytes.length < 2 ^ 31
deriving DecidableEq

/-- `struct llist`, with the number of its allocation. -/
structure Llist where
  number : Nat
  data : Buffer
deriving DecidableEq

def Llist.len (e : Llist) : Nat := e.data.bytes.length

/-- The list behind `ll_buffers`, the list that the worker sends and what is sent of its first
    buffer, what was freed, how many buffers came, and what went out. -/
structure State where
  ll_buffers : List Llist
  curelem : List Llist
  bytesleft : Int
  index : Nat
  sent : Bytes
  freed : List Llist
  count : Nat

def start : State := ⟨[], [], 0, 0, [], [], 0⟩

/-- How often the walk to the last buffer goes on. -/
def walk : List Llist → Nat
  | [] => 0
  | [_] => 0
  | _ :: cur :: rest => walk (cur :: rest) + 1

/-- The part of `rtlsdr_callback` that holds the lock. -/
def rtlsdr_callback (llbuf_num : Nat) (s : State) (buf : Buffer) : State :=
  let rpt : Llist := ⟨s.count, buf⟩
  let s := { s with count := s.count + 1 }
  match s.ll_buffers with
  | [] => { s with ll_buffers := [rpt] }
  | oldest :: rest =>
    let num_queued := walk (oldest :: rest)
    if llbuf_num ≠ 0 ∧ (llbuf_num : Int) = num_queued - 2 then
      { s with ll_buffers := rest ++ [rpt], freed := s.freed ++ [oldest] }
    else { s with ll_buffers := oldest :: rest ++ [rpt] }

/-- The head of the loop of `tcp_worker` over its list. -/
def nextElement (s : State) : State :=
  match s.curelem with
  | [] => s
  | e :: _ => { s with bytesleft := e.len, index := 0 }

/-- A step of the callback, or of the worker: it takes the list, sends a part of what is left of a
buffer, or frees a buffer. -/
inductive Event where
  | callback (buf : Buffer)
  | take
  | send (bytessent : Nat)
  | free

/-- `none` where the step cannot be taken. -/
def step (llbuf_num : Nat) (s : State) : Event → Option State
  | .callback buf => some (rtlsdr_callback llbuf_num s buf)
  | .take =>
    match s.curelem with
    | [] => some (nextElement { s with curelem := s.ll_buffers, ll_buffers := [] })
    | _ :: _ => none
  | .send bytessent =>
    match s.curelem with
    | [] => none
    | e :: _ =>
      if 0 < s.bytesleft ∧ 0 < bytessent ∧ (bytessent : Int) ≤ s.bytesleft then
        some { s with
          sent := s.sent ++ (e.data.bytes.drop s.index).take bytessent
          bytesleft := s.bytesleft - bytessent
          index := s.index + bytessent }
      else none
  | .free =>
    match s.curelem with
    | [] => none
    | e :: rest =>
      if 0 < s.bytesleft then none
      else some (nextElement { s with curelem := rest, freed := s.freed ++ [e] })

def run (llbuf_num : Nat) (events : List Event) : Option State :=
  events.foldlM (step llbuf_num) start

def Event.buffer : Event → Option Buffer
  | .callback buf => some buf
  | _ => none

def numbered (bufs : List Buffer) : List Llist := bufs.zipIdx.map fun (buf, i) => ⟨i, buf⟩

def received (events : List Event) : List Llist := numbered (events.filterMap Event.buffer)

def bytesOf (es : List Llist) : Bytes := es.flatMap fun e => e.data.bytes

def sending (s : State) : Bytes := (bytesOf s.curelem).drop s.index

def LeftOut (llbuf_num : Nat) (events : List Event) (e : Llist) : Prop :=
  ∃ before buf after s, events = before ++ .callback buf :: after ∧ run llbuf_num before = some s ∧
    s.ll_buffers.head? = some e ∧ s.ll_buffers.length = llbuf_num + 3

theorem walk_eq (es : List Llist) : walk es = es.length - 1 := by
  induction es using walk.induct with
  | case1 => rfl
  | case2 => rfl
  | case3 e cur rest ih =>
    rw [walk, ih]
    rfl

theorem callback_cases {llbuf_num : Nat} (positive : 0 < llbuf_num) (s : State) (buf : Buffer)
    (short : s.ll_buffers.length ≤ llbuf_num + 3) :
    (s.ll_buffers.length < llbuf_num + 3 ∧ rtlsdr_callback llbuf_num s buf =
      { s with count := s.count + 1, ll_buffers := s.ll_buffers ++ [⟨s.count, buf⟩] }) ∨
    ∃ oldest rest, s.ll_buffers = oldest :: rest ∧ s.ll_buffers.length = llbuf_num + 3 ∧
      rtlsdr_callback llbuf_num s buf =
        { s with count := s.count + 1, ll_buffers := rest ++ [⟨s.count, buf⟩]
                 freed := s.freed ++ [oldest] } := by
  cases list : s.ll_buffers with
  | nil =>
    left
    simp only [rtlsdr_callback, list]
    exact ⟨Nat.succ_pos _, rfl⟩
  | cons oldest rest =>
    rw [list, List.length_cons] at short
    simp only [rtlsdr_callback, list, walk_eq, List.length_cons]
    split
    · rename_i full
      exact .inr ⟨oldest, rest, rfl, by omega, rfl⟩
    · rename_i room
      exact .inl ⟨by omega, rfl⟩

theorem received_callback (events : List Event) (buf : Buffer) :
    received (events ++ [.callback buf]) =
      received events ++ [⟨(received events).length, buf⟩] := by
  simp [received, numbered, Event.buffer, List.zipIdx_append]

theorem received_other (events : List Event) {event : Event} (other : event.buffer = none) :
    received (events ++ [event]) = received events := by
  simp [received, other]

theorem received_nodup (events : List Event) : (received events).Nodup := by
  have numbers : ((received events).map Llist.number).Nodup := by
    rw [received, numbered, List.map_map]
    have same : (Llist.number ∘ fun (x : Buffer × Nat) => (⟨x.2, x.1⟩ : Llist)) = Prod.snd := rfl
    rw [same, List.zipIdx_map_snd]
    exact List.nodup_range'
  exact numbers.of_map _

theorem run_append (llbuf_num : Nat) (events : List Event) (event : Event) :
    run llbuf_num (events ++ [event]) = (run llbuf_num events).bind (step llbuf_num · event) := by
  rw [run, List.foldlM_append]
  apply bind_congr
  intro s
  rw [List.foldlM_cons]
  exact bind_pure _

variable {llbuf_num : Nat} {events : List Event} {s s' : State} {e : Llist}

theorem LeftOut.later (leftOut : LeftOut llbuf_num events e) (event : Event) :
    LeftOut llbuf_num (events ++ [event]) e := by
  obtain ⟨before, buf, after, s, whole, reached, oldest, full⟩ := leftOut
  refine ⟨before, buf, after ++ [event], s, ?_, reached, oldest, full⟩
  rw [whole, List.append_assoc, List.cons_append]

def AtPlace (s : State) : Prop :=
  ∀ e rest, s.curelem = e :: rest → s.bytesleft = e.len - s.index ∧ s.index ≤ e.len

structure Inv (llbuf_num : Nat) (events : List Event) (s : State) : Prop where
  short : s.ll_buffers.length ≤ llbuf_num + 3
  count : s.count = (received events).length
  place : AtPlace s
  order : ∃ done, s.sent ++ sending s = bytesOf (done ++ s.curelem) ∧
    (done ++ s.curelem ++ s.ll_buffers).Sublist (received events) ∧
      ∀ e ∈ received events, e ∉ done ++ s.curelem ++ s.ll_buffers → LeftOut llbuf_num events e
  freed : (s.freed ++ s.curelem ++ s.ll_buffers).Perm (received events)

theorem inv_start (llbuf_num : Nat) : Inv llbuf_num [] start :=
  ⟨Nat.zero_le _, rfl, nofun, ⟨[], rfl, List.Sublist.refl _, nofun⟩, List.Perm.refl _⟩

theorem inv_callback (positive : 0 < llbuf_num) (reached : run llbuf_num events = some s)
    (inv : Inv llbuf_num events s) (buf : Buffer) :
    Inv llbuf_num (events ++ [.callback buf]) (rtlsdr_callback llbuf_num s buf) := by
  obtain ⟨done, bytes, order, leftOut⟩ := inv.order
  have received := received_callback events buf
  rw [← inv.count] at received
  cases callback_cases positive s buf inv.short with
  | inl room =>
    obtain ⟨room, result⟩ := room
    rw [result]
    constructor
    · simp only [List.length_append, List.length_singleton]
      omega
    · rw [received, List.length_append, List.length_singleton, inv.count]
    · exact inv.place
    · refine ⟨done, bytes, ?_, ?_⟩
      · rw [received, ← List.append_assoc]
        exact order.append_right _
      · intro e member missing
        rw [received, List.mem_append] at member
        rw [← List.append_assoc, List.mem_append, not_or] at missing
        exact (leftOut e (member.resolve_right missing.2) missing.1).later _
    · rw [received, ← List.append_assoc]
      exact inv.freed.append_right _
  | inr full =>
    obtain ⟨oldest, rest, list, full, result⟩ := full
    rw [list] at order
    rw [result]
    constructor
    · rw [list, List.length_cons] at full
      simp only [List.length_append, List.length_singleton]
      omega
    · rw [received, List.length_append, List.length_singleton, inv.count]
    · exact inv.place
    · refine ⟨done, bytes, ?_, ?_⟩
      · rw [received, ← List.append_assoc]
        have fewer : (done ++ s.curelem ++ rest).Sublist (done ++ s.curelem ++ oldest :: rest) :=
          (List.sublist_cons_self oldest rest).append_left _
        exact (fewer.trans order).append_right _
      · intro e member missing
        rw [received, List.mem_append] at member
        rw [← List.append_assoc, List.mem_append, not_or] at missing
        have before := member.resolve_right missing.2
        by_cases same : e = oldest
        · exact ⟨events, buf, [], s, rfl, reached, by rw [list, same]; rfl, full⟩
        · apply (leftOut e before _).later
          rw [list]
          simp only [List.mem_append, List.mem_cons, not_or] at missing ⊢
          exact ⟨missing.1.1, same, missing.1.2⟩
    · have freed := inv.freed
      rw [list] at freed
      have moved : (s.freed ++ [oldest] ++ s.curelem ++ rest).Perm
          (s.freed ++ s.curelem ++ oldest :: rest) := by
        simp only [List.append_assoc, List.singleton_append]
        exact List.perm_middle.symm.append_left s.freed
      rw [received, ← List.append_assoc]
      exact (moved.trans freed).append_right _

@[simp] theorem nextElement_ll_buffers (s : State) : (nextElement s).ll_buffers = s.ll_buffers := by
  rw [nextElement]
  split <;> rfl

@[simp] theorem nextElement_curelem (s : State) : (nextElement s).curelem = s.curelem := by
  rw [nextElement]
  split <;> rfl

@[simp] theorem nextElement_sent (s : State) : (nextElement s).sent = s.sent := by
  rw [nextElement]
  split <;> rfl

@[simp] theorem nextElement_freed (s : State) : (nextElement s).freed = s.freed := by
  rw [nextElement]
  split <;> rfl

@[simp] theorem nextElement_count (s : State) : (nextElement s).count = s.count := by
  rw [nextElement]
  split <;> rfl

theorem nextElement_fresh (s : State) :
    sending (nextElement s) = bytesOf s.curelem ∧ AtPlace (nextElement s) := by
  cases list : s.curelem with
  | nil =>
    constructor
    · rw [sending, nextElement_curelem, list]
      exact List.drop_nil
    · intro e rest member
      rw [nextElement_curelem, list] at member
      cases member
  | cons e rest =>
    simp only [nextElement, list, sending]
    refine ⟨rfl, ?_⟩
    intro e' rest' same
    cases same
    exact ⟨(Int.sub_zero _).symm, Nat.zero_le _⟩

theorem bytesOf_append (es es' : List Llist) : bytesOf (es ++ es') = bytesOf es ++ bytesOf es' :=
  List.flatMap_append

structure Moved (s s' : State) : Prop where
  count : s'.count = s.count
  short : s'.ll_buffers.length ≤ s.ll_buffers.length
  place : AtPlace s'
  order : ∀ done, s.sent ++ sending s = bytesOf (done ++ s.curelem) →
    ∃ done', s'.sent ++ sending s' = bytesOf (done' ++ s'.curelem) ∧
      done' ++ s'.curelem ++ s'.ll_buffers = done ++ s.curelem ++ s.ll_buffers
  freed : s'.freed ++ s'.curelem ++ s'.ll_buffers = s.freed ++ s.curelem ++ s.ll_buffers

theorem moved_take (idle : s.curelem = []) :
    Moved s (nextElement { s with curelem := s.ll_buffers, ll_buffers := [] }) := by
  have fresh := nextElement_fresh { s with curelem := s.ll_buffers, ll_buffers := [] }
  constructor
  · exact nextElement_count _
  · rw [nextElement_ll_buffers]
    exact Nat.zero_le _
  · exact fresh.2
  · intro done sent
    refine ⟨done, ?_, ?_⟩
    · rw [sending, idle, List.append_nil, bytesOf, List.flatMap_nil, List.drop_nil,
        List.append_nil] at sent
      rw [fresh.1, nextElement_sent, nextElement_curelem, sent, bytesOf_append]
    · rw [nextElement_curelem, nextElement_ll_buffers, idle, List.append_nil, List.append_nil]
  · rw [nextElement_freed, nextElement_curelem, nextElement_ll_buffers, idle, List.append_nil,
      List.append_nil]

theorem moved_free {rest : List Llist} (place : AtPlace s) (first : s.curelem = e :: rest)
    (sent_all : ¬ 0 < s.bytesleft) :
    Moved s (nextElement { s with curelem := rest, freed := s.freed ++ [e] }) := by
  have fresh := nextElement_fresh { s with curelem := rest, freed := s.freed ++ [e] }
  obtain ⟨left, inside⟩ := place e rest first
  have all : s.index = e.data.bytes.length := by
    change s.index = e.len
    omega
  constructor
  · exact nextElement_count _
  · rw [nextElement_ll_buffers]
  · exact fresh.2
  · intro done sent
    refine ⟨done ++ [e], ?_, ?_⟩
    · have later : sending s = bytesOf rest := by
        rw [sending, first, bytesOf, List.flatMap_cons, all, List.drop_left]
        rfl
      rw [later, first] at sent
      rw [fresh.1, nextElement_sent, nextElement_curelem, List.append_assoc, List.singleton_append]
      exact sent
    · rw [nextElement_curelem, nextElement_ll_buffers, first]
      simp
  · rw [nextElement_freed, nextElement_curelem, nextElement_ll_buffers, first]
    simp

theorem moved_send {rest : List Llist} {bytessent : Nat} (place : AtPlace s)
    (first : s.curelem = e :: rest) (part : (bytessent : Int) ≤ s.bytesleft) :
    Moved s { s with
      sent := s.sent ++ (e.data.bytes.drop s.index).take bytessent
      bytesleft := s.bytesleft - bytessent
      index := s.index + bytessent } := by
  obtain ⟨left, inside⟩ := place e rest first
  have fits : bytessent ≤ (e.data.bytes.drop s.index).length := by
    rw [List.length_drop]
    change bytessent ≤ e.len - s.index
    omega
  constructor
  · rfl
  · exact Nat.le_refl _
  · intro e' rest' same
    cases first.symm.trans same
    constructor
    · change s.bytesleft - bytessent = e.len - ((s.index + bytessent : Nat) : Int)
      omega
    · change s.index + bytessent ≤ e.len
      omega
  · intro done sent
    refine ⟨done, ?_, rfl⟩
    have rest_sent : (e.data.bytes.drop s.index).take bytessent ++
        (bytesOf s.curelem).drop (s.index + bytessent) = (bytesOf s.curelem).drop s.index := by
      rw [first, bytesOf, List.flatMap_cons, ← List.drop_drop,
        List.drop_append_of_le_length inside, ← List.take_append_of_le_length fits,
        List.take_append_drop]
    rw [← sent, sending, sending, ← rest_sent, List.append_assoc]
  · rfl

theorem Inv.moved (inv : Inv llbuf_num events s) {event : Event} (other : event.buffer = none)
    (moved : Moved s s') : Inv llbuf_num (events ++ [event]) s' := by
  have received := received_other events other
  obtain ⟨done, sent, order, leftOut⟩ := inv.order
  obtain ⟨done', sent', same⟩ := moved.order done sent
  constructor
  · exact Nat.le_trans moved.short inv.short
  · rw [received, moved.count, inv.count]
  · exact moved.place
  · refine ⟨done', sent', ?_, ?_⟩
    · rw [received, same]
      exact order
    · intro e member missing
      rw [received] at member
      rw [same] at missing
      exact (leftOut e member missing).later event
  · rw [received, moved.freed]
    exact inv.freed

theorem inv_step (positive : 0 < llbuf_num) (reached : run llbuf_num events = some s)
    (inv : Inv llbuf_num events s) {event : Event} (taken : step llbuf_num s event = some s') :
    Inv llbuf_num (events ++ [event]) s' := by
  cases event with
  | callback buf =>
    cases taken
    exact inv_callback positive reached inv buf
  | take =>
    cases list : s.curelem with
    | cons e rest => simp only [step, list, reduceCtorEq] at taken
    | nil =>
      simp only [step, list, Option.some.injEq] at taken
      subst taken
      exact inv.moved rfl (moved_take list)
  | send bytessent =>
    cases list : s.curelem with
    | nil => simp only [step, list, reduceCtorEq] at taken
    | cons e rest =>
      simp only [step, list] at taken
      split at taken
      · rename_i part
        cases taken
        have moved := moved_send inv.place list part.2.2
        rw [list] at moved
        exact inv.moved rfl moved
      · cases taken
  | free =>
    cases list : s.curelem with
    | nil => simp only [step, list, reduceCtorEq] at taken
    | cons e rest =>
      simp only [step, list] at taken
      split at taken
      · cases taken
      · rename_i sent_all
        cases taken
        exact inv.moved rfl (moved_free inv.place list sent_all)

theorem inv_run (positive : 0 < llbuf_num) (reached : run llbuf_num events = some s) :
    Inv llbuf_num events s := by
  induction events using List.reverseRecOn generalizing s with
  | nil =>
    cases reached
    exact inv_start llbuf_num
  | append_singleton events event ih =>
    rw [run_append] at reached
    obtain ⟨before, reached, taken⟩ := Option.bind_eq_some_iff.mp reached
    exact inv_step positive reached (ih reached) taken

/-- Nothing is lost but the oldest buffer of a full list, and each buffer is freed once. -/
theorem sample_list_in_order {llbuf_num : Nat} (positive : 0 < llbuf_num) {events : List Event}
    {s : State} (reached : run llbuf_num events = some s) :
    s.ll_buffers.length ≤ llbuf_num + 3 ∧
    (∃ kept, s.sent ++ sending s ++ bytesOf s.ll_buffers = bytesOf kept ∧
      kept.Sublist (received events) ∧
        ∀ e ∈ received events, e ∉ kept → LeftOut llbuf_num events e) ∧
    (s.freed ++ s.curelem ++ s.ll_buffers).Perm (received events) ∧ (received events).Nodup := by
  have inv := inv_run positive reached
  obtain ⟨done, sent, order, leftOut⟩ := inv.order
  refine ⟨inv.short, ⟨done ++ s.curelem ++ s.ll_buffers, ?_, order, leftOut⟩, inv.freed,
    received_nodup events⟩
  rw [sent, bytesOf_append (done ++ s.curelem)]

/-- Five buffers come, and the worker sends the second one in two parts. -/
def fiveBuffers : List Event :=
  [.callback ⟨[1], by decide⟩, .callback ⟨[2, 3], by decide⟩, .callback ⟨[], by decide⟩,
    .callback ⟨[4], by decide⟩, .callback ⟨[5], by decide⟩, .take, .send 1, .send 1, .free]

theorem sample_list_five_buffers : ∃ s, run 1 fiveBuffers = some s ∧ s.sent = [2, 3] ∧
    (s.freed ++ s.curelem ++ s.ll_buffers).Perm (received fiveBuffers) :=
  ⟨_, rfl, rfl, (sample_list_in_order Nat.one_pos rfl).2.2.1⟩

end Soapy.Rtl.Tcp
