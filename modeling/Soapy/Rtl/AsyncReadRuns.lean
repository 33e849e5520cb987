import Soapy.Rtl.AsyncRead

/-! # The life of an asynchronous read

Between its allocations and the way out of its loop, a read has all its transfers and
buffers, and a transfer in flight has a buffer. What may go wrong is an allocation that
fails unnoticed, and a way out of the loop with transfers in flight or while `next_status`
still says that cancels are under way.
-/

namespace Soapy.Rtl.AsyncRead

open Lib

variable {h : Heap}

theorem Heap.free_faults {b : Nat} (live : b ∈ h.live) : (h.free b).faults = h.faults := by
  simp [Heap.free, live]

theorem Heap.free_live {b c : Nat} (live : c ∈ h.live) (other : c ≠ b) :
    c ∈ (h.free b).live := by
  unfold Heap.free
  split
  · exact (List.mem_erase_of_ne other).mpr live
  · exact live

theorem free_buffers_faults {ps : List (Option Nat)} (distinct : ps.reduceOption.Nodup)
    (live : ∀ b ∈ ps.reduceOption, b ∈ h.live) : (free_buffers ps h).faults = h.faults := by
  induction ps generalizing h with
  | nil => rfl
  | cons p ps ih =>
    cases p with
    | none => exact ih distinct live
    | some b =>
      simp only [List.reduceOption_cons_of_some, List.nodup_cons] at distinct
      have here := live b (by simp [List.reduceOption_cons_of_some])
      have rest : (free_buffers ps (h.free b)).faults = (h.free b).faults := by
        apply ih distinct.2
        intro c member
        apply Heap.free_live
        · exact live c (by simp [List.reduceOption_cons_of_some, member])
        · rintro rfl
          exact distinct.1 member
      exact rest.trans (Heap.free_faults here)

theorem alloc_buffers_partly (success : Nat → Bool) (i n : Nat) (h : Heap) :
    let (bs, _, h') := alloc_buffers success i (List.replicate n none) h
    h'.faults = h.faults ∧ bs.reduceOption.Nodup ∧ (∀ b ∈ h.live, b ∈ h'.live) ∧
      ∀ b ∈ bs.reduceOption, h.next ≤ b ∧ b ∈ h'.live := by
  induction n generalizing i h with
  | zero => simp [alloc_buffers]
  | succ n ih =>
    simp only [List.replicate_succ, alloc_buffers]
    by_cases ok : success i = true
    · have rest := ih (i + 1) h.malloc.2
      simp only [if_pos ok, List.reduceOption_cons_of_some, List.nodup_cons]
      generalize alloc_buffers success (i + 1) (List.replicate n none) h.malloc.2 = result at rest
      obtain ⟨bs, all, h'⟩ := result
      obtain ⟨faults, distinct, kept, fresh⟩ := rest
      have here : h.next ∈ h'.live := kept h.next List.mem_cons_self
      refine ⟨faults, ⟨?_, distinct⟩, ?_, ?_⟩
      · intro again
        have later : h.next + 1 ≤ h.next := (fresh h.next again).1
        omega
      · intro b live
        exact kept b (List.mem_cons_of_mem _ live)
      · intro b member
        rcases List.mem_cons.mp member with rfl | member
        · exact ⟨Nat.le_refl _, here⟩
        · have later : h.next + 1 ≤ b := (fresh b member).1
          exact ⟨by omega, (fresh b member).2⟩
    · simp [if_neg ok]

theorem alloc_buffers_all (success : Nat → Bool) (i : Nat) (ps : List (Option Nat)) (h : Heap)
    (all : ∀ j < ps.length, success (i + j) = true) :
    alloc_buffers success i ps h =
      ((List.range' h.next ps.length).map some, true,
        { h with next := h.next + ps.length, live := (List.range' h.next ps.length).reverse ++ h.live }) := by
  induction ps generalizing i h with
  | nil => simp [alloc_buffers]
  | cons p ps ih =>
    have here : success i = true := all 0 (by simp)
    have rest : ∀ j < ps.length, success (i + 1 + j) = true := by
      intro j below
      rw [Nat.add_assoc, Nat.add_comm 1 j]
      exact all (j + 1) (by simp [below])
    simp only [alloc_buffers, if_pos here, ih _ _ rest, Heap.malloc, List.length_cons,
      List.range'_succ, List.map_cons, List.reverse_cons, List.append_assoc]
    simp only [Nat.add_assoc, Nat.add_comm 1, List.cons_append, List.nil_append]

theorem alloc_buffers_length (success : Nat → Bool) (i : Nat) (ps : List (Option Nat)) (h : Heap) :
    (alloc_buffers success i ps h).1.length = ps.length := by
  induction ps generalizing i h with
  | nil => rfl
  | cons p ps ih =>
    simp only [alloc_buffers]
    split
    · simp [ih]
    · rfl

variable {i : Nat}

theorem alloc_buffers_stops {success : Nat → Bool} {ps : List (Option Nat)}
    (all : (alloc_buffers success i ps h).2.1 = true) : ∀ j < ps.length, success (i + j) = true := by
  induction ps generalizing i h with
  | nil => simp
  | cons p ps ih =>
    simp only [alloc_buffers] at all
    split at all
    · intro j below
      cases j with
      | zero => assumption
      | succ j =>
        have later := ih all j (by simpa using below)
        rwa [Nat.add_assoc, Nat.add_comm 1 j] at later
    · cases all

structure Ready (s : State) : Prop where
  running : s.async_status ≠ .inactive
  xfer : ∃ ts : List Transfer, s.xfer = some (ts.map some) ∧ ts.length = s.xfer_buf_num ∧
    ∀ t ∈ ts, t.in_flight = true → t.buffer.isSome = true
  xfer_buf : ∃ bs : List Nat, s.xfer_buf = some (bs.map some) ∧ bs.length = s.xfer_buf_num ∧
    bs.Nodup ∧ ∀ b ∈ bs, b ∈ s.heap.live

/-- All that an allocation needs to serve the transfers: zero-copy buffers or buffers in user
    space, all of one kind. -/
def Allocs.Suffice (a : Allocs) (n : Nat) : Prop :=
  a.xfer = true ∧ a.xfer_buf = true ∧ (∀ i < n, a.transfer i = true) ∧
    ((∀ i < n, a.zerocopy i = true) ∨ ∀ i < n, a.user i = true)

variable {s : State}

theorem alloc_xfer_buf_ready {a : Allocs} {ts : List Transfer}
    (running : s.async_status ≠ .inactive) (xfer : s.xfer = some (ts.map some))
    (count : ts.length = s.xfer_buf_num) (idle : ∀ t ∈ ts, t.in_flight = false)
    (suffice : (∀ i < s.xfer_buf_num, a.zerocopy i = true) ∨ ∀ i < s.xfer_buf_num, a.user i = true) :
    Ready (alloc_xfer_buf s a) ∧ (alloc_xfer_buf s a).heap.faults = s.heap.faults := by
  have transfers : ∃ us : List Transfer, s.xfer = some (us.map some) ∧
      us.length = s.xfer_buf_num ∧ ∀ t ∈ us, t.in_flight = true → t.buffer.isSome = true := by
    refine ⟨ts, xfer, count, ?_⟩
    intro t member flies
    rw [idle t member] at flies
    cases flies
  by_cases zero : ∀ i < s.xfer_buf_num, a.zerocopy i = true
  · have all := alloc_buffers_all a.zerocopy 0 (List.replicate s.xfer_buf_num none) s.heap
      (by simpa using zero)
    simp only [List.length_replicate] at all
    simp only [alloc_xfer_buf, all]
    refine ⟨⟨running, transfers, _, rfl, by simp, List.nodup_range', ?_⟩, rfl⟩
    intro b member
    exact List.mem_append_left _ (List.mem_reverse.mpr member)
  · have user := suffice.resolve_left zero
    have stops : (alloc_buffers a.zerocopy 0 (List.replicate s.xfer_buf_num none) s.heap).2.1 =
        false := by
      apply Bool.eq_false_iff.mpr
      intro all
      apply zero
      simpa using alloc_buffers_stops all
    have partly := alloc_buffers_partly a.zerocopy 0 s.xfer_buf_num s.heap
    have length := alloc_buffers_length a.zerocopy 0 (List.replicate s.xfer_buf_num none) s.heap
    simp only [alloc_xfer_buf]
    generalize alloc_buffers a.zerocopy 0 (List.replicate s.xfer_buf_num none) s.heap = result
      at stops partly length
    obtain ⟨bs, all, heap⟩ := result
    obtain rfl : all = false := stops
    obtain ⟨faults, distinct, -, fresh⟩ := partly
    simp only [List.length_replicate] at length
    have freed := free_buffers_faults distinct (fun b member => (fresh b member).2)
    have full := alloc_buffers_all a.user 0 bs (free_buffers bs heap) (by simpa [length] using user)
    simp only [full, length]
    refine ⟨⟨running, transfers, _, rfl, by simp, List.nodup_range', ?_⟩, freed.trans faults⟩
    intro b member
    exact List.mem_append_left _ (List.mem_reverse.mpr member)

theorem alloc_xfer_buf_place (s : State) (a : Allocs) :
    (alloc_xfer_buf s a).place = s.place ∧ (alloc_xfer_buf s a).next_status = s.next_status := by
  simp only [alloc_xfer_buf]
  split
  · exact ⟨rfl, rfl⟩
  · exact ⟨rfl, rfl⟩

theorem alloc_async_buffers_ready {a : Allocs} (running : s.async_status ≠ .inactive)
    (xfer : s.xfer = none) (xfer_buf : s.xfer_buf = none) (suffice : a.Suffice s.xfer_buf_num) :
    Ready (alloc_async_buffers s a) ∧ (alloc_async_buffers s a).heap.faults = s.heap.faults ∧
      (alloc_async_buffers s a).place = .submits 0 ∧
      (alloc_async_buffers s a).next_status = s.next_status := by
  obtain ⟨first, second, transfers, buffers⟩ := suffice
  have all : (List.range s.xfer_buf_num).map
      (fun i => if a.transfer i then some libusb_alloc_transfer else none) =
      (List.replicate s.xfer_buf_num libusb_alloc_transfer).map some := by
    rw [List.map_replicate]
    apply List.eq_replicate_iff.mpr
    constructor
    · simp
    · intro t member
      obtain ⟨i, below, rfl⟩ := List.mem_map.mp member
      rw [if_pos (transfers i (List.mem_range.mp below))]
  simp only [alloc_async_buffers, xfer, first, if_true, all, Option.isNone_some, Bool.false_eq_true,
    if_false, xfer_buf, Option.isSome_none, second]
  have ready := alloc_xfer_buf_ready (a := a)
    (s := { s with
      place := .submits 0
      xfer := some ((List.replicate s.xfer_buf_num libusb_alloc_transfer).map some) })
    running rfl (by simp) (by simp [libusb_alloc_transfer]) buffers
  rw [xfer_buf] at ready
  exact ⟨ready.1, ready.2, alloc_xfer_buf_place _ a⟩

theorem Ready.store {t : Transfer} (ready : Ready s)
    (buffer : t.in_flight = true → t.buffer.isSome = true) : Ready (s.store i t) := by
  obtain ⟨ts, xfer, count, filled⟩ := ready.xfer
  constructor
  · exact ready.running
  · refine ⟨ts.set i t, ?_, ?_, ?_⟩
    · simp [State.store, xfer, List.map_set]
    · simpa [State.store] using count
    · intro u member flies
      rcases List.mem_or_eq_of_mem_set member with old | rfl
      · exact filled u old flies
      · exact buffer flies
  · exact ready.xfer_buf

theorem Ready.transfer (ready : Ready s) (below : i < s.xfer_buf_num) :
    ∃ t, s.transfers[i]? = some (some t) := by
  obtain ⟨ts, xfer, count, -⟩ := ready.xfer
  have here : i < ts.length := by omega
  refine ⟨ts[i], ?_⟩
  simp [State.transfers, xfer, here]

theorem Ready.filled {s : State} {i : Nat} {t : Transfer} (ready : Ready s)
    (at_i : s.transfers[i]? = some (some t)) (flies : t.in_flight = true) :
    t.buffer.isSome = true := by
  obtain ⟨ts, xfer, -, filled⟩ := ready.xfer
  simp only [State.transfers, xfer, Option.getD_some, List.getElem?_map] at at_i
  obtain ⟨u, here, same⟩ := Option.map_eq_some_iff.mp at_i
  obtain rfl := Option.some.inj same
  exact filled u (List.mem_of_getElem? here) flies

theorem Ready.buffer (ready : Ready s) (below : i < s.xfer_buf_num) :
    (((s.xfer_buf.getD [])[i]?).join).isSome = true := by
  obtain ⟨bs, xfer_buf, count, -⟩ := ready.xfer_buf
  have here : i < bs.length := by omega
  simp [xfer_buf, here]

theorem Ready.submit {success : Bool} (ready : Ready s) (below : i < s.xfer_buf_num) :
    Ready (submit s i success) ∧ (submit s i success).heap = s.heap ∧
      (submit s i success).next_status = s.next_status ∧
      ((submit s i success).place = .submits (i + 1) ∨ (submit s i success).place = .loops) := by
  obtain ⟨t, at_i⟩ := ready.transfer below
  have buffer := ready.buffer below
  have filled : (((s.xfer_buf.getD [])[i]?).join).isNone = false := by
    rw [← Option.not_isSome, buffer]
    rfl
  have stored := ready.store (i := i)
    (t := { t with buffer := ((s.xfer_buf.getD [])[i]?).join, in_flight := success })
    (fun _ => buffer)
  simp only [AsyncRead.submit, at_i, filled, Bool.false_eq_true, if_false]
  cases success with
  | true => exact ⟨⟨stored.running, stored.xfer, stored.xfer_buf⟩, rfl, rfl, .inl rfl⟩
  | false => exact ⟨⟨nofun, stored.xfer, stored.xfer_buf⟩, rfl, rfl, .inr rfl⟩

theorem Ready.cancel_async (ready : Ready s) : Ready (cancel_async s) := by
  unfold AsyncRead.cancel_async
  split
  · exact ⟨nofun, ready.xfer, ready.xfer_buf⟩
  · exact ready

theorem cancel_async_keeps (s : State) :
    (cancel_async s).heap = s.heap ∧ (cancel_async s).place = s.place ∧
      (cancel_async s).next_status = s.next_status ∧ (cancel_async s).xfer = s.xfer ∧
      (cancel_async s).xfer_buf = s.xfer_buf := by
  unfold cancel_async
  split
  · exact ⟨rfl, rfl, rfl, rfl, rfl⟩
  · exact ⟨rfl, rfl, rfl, rfl, rfl⟩

theorem Ready.failed (ready : Ready s) (status : TransferStatus) :
    Ready (transfer_failed s status) ∧ (transfer_failed s status).heap = s.heap ∧
      (transfer_failed s status).place = s.place ∧
      (transfer_failed s status).next_status = s.next_status := by
  have errs : ∀ errors lost, Ready { s with xfer_errors := errors, dev_lost := lost } :=
    fun _ _ => ⟨ready.running, ready.xfer, ready.xfer_buf⟩
  simp only [transfer_failed]
  generalize (if status = .error then s.xfer_errors + 1 else s.xfer_errors) = errors
  split
  · obtain ⟨heap, place, next, -⟩ :=
      cancel_async_keeps { s with xfer_errors := errors, dev_lost := true }
    exact ⟨(errs errors true).cancel_async, heap, place, next⟩
  · exact ⟨errs errors s.dev_lost, rfl, rfl, rfl⟩

theorem Ready.callback {t : Transfer} (status : TransferStatus)
    (resubmits : Bool) (ready : Ready s) (buffer : t.buffer.isSome = true) :
    Ready (libusb_callback s i t status resubmits) ∧
      (libusb_callback s i t status resubmits).heap = s.heap ∧
      (libusb_callback s i t status resubmits).place = s.place ∧
      (libusb_callback s i t status resubmits).next_status = s.next_status := by
  have ended := ready.store (i := i) (t := { t with status := status, in_flight := false }) nofun
  cases status with
  | completed =>
    have again := ended.store (i := i)
      (t := { t with status := .completed, in_flight := resubmits }) (fun _ => buffer)
    have filled : t.buffer.isNone = false := by
      rw [← Option.not_isSome, buffer]
      rfl
    simp only [libusb_callback, filled, Bool.false_eq_true, if_false]
    exact ⟨⟨again.running, again.xfer, again.xfer_buf⟩, rfl, rfl, rfl⟩
  | cancelled => exact ⟨ended, rfl, rfl, rfl⟩
  | error | timed_out | stall | no_device | overflow => exact ended.failed _

theorem Ready.free (ready : Ready s) (landed : s.Landed) :
    (free_async_buffers s).heap.faults = s.heap.faults := by
  obtain ⟨bs, xfer_buf, -, distinct, live⟩ := ready.xfer_buf
  have none : s.transfers.any Transfer.flies = false := by
    apply List.any_eq_false.mpr
    intro t member
    rw [landed t member]
    exact Bool.false_ne_true
  have ids : (bs.map some).reduceOption = bs := by simp [List.reduceOption]
  simp only [free_async_buffers, none, Bool.false_eq_true, if_false, xfer_buf, Option.getD_some]
  apply free_buffers_faults
  · rw [ids]
    exact distinct
  · rw [ids]
    exact live

/-- The allocations suffice, events are not handled with an error while a transfer is in flight or
    cancels are under way, a round of cancels with success is not the last one, also when the device
    is lost, and the last event handling does not return before every callback ran. -/
def Meets (s : State) : Act → Prop
  | .alloc a => a.Suffice s.xfer_buf_num
  | .handled .error => s.Landed ∧ s.next_status = .inactive
  | .round_end => s.dev_lost = true → s.next_status = .inactive
  | .drained => s.Landed
  | _ => True

def State.Holds (s : State) : Place → Prop
  | .idle => s.async_status = .inactive ∧ s.xfer = none ∧ s.xfer_buf = none
  | .entered | .allocates => s.async_status ≠ .inactive ∧ s.xfer = none ∧ s.xfer_buf = none ∧
      s.next_status = .inactive
  | .submits _ | .drains => Ready s ∧ s.next_status = .inactive
  | .loops | .handles | .checks | .cancels _ | .settles _ _ => Ready s
  | .leaves => Ready s ∧ s.next_status = .inactive ∧ s.Landed
  | .freed => s.next_status = .inactive ∧ s.xfer = none ∧ s.xfer_buf = none
  | .crashed => False

structure Inv (s : State) : Prop where
  faults : s.heap.faults = []
  holds : s.Holds s.place

theorem Inv.start : Inv State.start := ⟨rfl, rfl, rfl, rfl⟩

theorem Inv.cancel_async (inv : Inv s) : Inv (cancel_async s) := by
  obtain ⟨heap, place, next, xfer, xfer_buf⟩ := cancel_async_keeps s
  have holds := inv.holds
  have running : s.async_status ≠ .inactive → (AsyncRead.cancel_async s).async_status ≠ .inactive := by
    intro running
    unfold AsyncRead.cancel_async
    split
    · nofun
    · exact running
  constructor
  · rw [heap, inv.faults]
  · rw [place]
    cases at_p : s.place with
    | idle =>
      rw [at_p] at holds
      obtain ⟨off, none⟩ := holds
      have same : AsyncRead.cancel_async s = s := by
        unfold AsyncRead.cancel_async
        rw [if_neg (by rw [off]; decide)]
      rw [same]
      exact ⟨off, none⟩
    | entered | allocates =>
      rw [at_p] at holds
      exact ⟨running holds.1, xfer.trans holds.2.1, xfer_buf.trans holds.2.2.1,
        next.trans holds.2.2.2⟩
    | submits | drains =>
      rw [at_p] at holds
      exact ⟨holds.1.cancel_async, next.trans holds.2⟩
    | loops | handles | checks | cancels | settles =>
      rw [at_p] at holds
      exact Ready.cancel_async holds
    | leaves =>
      rw [at_p] at holds
      refine ⟨holds.1.cancel_async, next.trans holds.2.1, ?_⟩
      unfold State.Landed State.transfers
      rw [xfer]
      exact holds.2.2
    | freed =>
      rw [at_p] at holds
      exact ⟨next.trans holds.1, xfer.trans holds.2.1, xfer_buf.trans holds.2.2⟩
    | crashed =>
      rw [at_p] at holds
      cases holds

theorem Inv.step {s s' : State} {a : Act} (inv : Inv s) (meets : Meets s a) (step : Step s a s') :
    Inv s' := by
  have faults := inv.faults
  have holds := inv.holds
  cases step with
  | read_async at_p off =>
    rw [at_p] at holds
    exact ⟨faults, nofun, holds.2.1, holds.2.2, rfl⟩
  | begin_async at_p =>
    rw [at_p] at holds
    exact ⟨faults, holds⟩
  | alloc at_p =>
    rw [at_p] at holds
    obtain ⟨running, xfer, xfer_buf, next⟩ := holds
    obtain ⟨ready, same, place, next'⟩ := alloc_async_buffers_ready running xfer xfer_buf meets
    constructor
    · rw [same, faults]
    · rw [place]
      exact ⟨ready, by rw [next', next]⟩
  | submit at_p below =>
    rw [at_p] at holds
    obtain ⟨ready, next⟩ := holds
    obtain ⟨ready', same, next', place⟩ := ready.submit below
    constructor
    · rw [same, faults]
    · rcases place with place | place
      · rw [place]
        exact ⟨ready', by rw [next', next]⟩
      · rw [place]
        exact ready'
  | submitted at_p =>
    rw [at_p] at holds
    exact ⟨faults, holds.1.running, holds.1.xfer, holds.1.xfer_buf⟩
  | cancel_async => exact inv.cancel_async
  | @callback i t status resubmits at_p at_i flies =>
    have calls : ∀ {next}, Ready s → s.next_status = next →
        (libusb_callback s i t status resubmits).heap.faults = [] ∧
        Ready (libusb_callback s i t status resubmits) ∧
        (libusb_callback s i t status resubmits).place = s.place ∧
        (libusb_callback s i t status resubmits).next_status = next := by
      intro next ready same
      obtain ⟨ready', heap, place, next'⟩ :=
        ready.callback status resubmits (ready.filled at_i flies)
      exact ⟨by rw [heap, faults], ready', place, by rw [next', same]⟩
    cases place : s.place with
    | handles | settles =>
      rw [place] at holds
      obtain ⟨faults', ready, place', -⟩ := calls holds rfl
      exact ⟨faults', by rw [place', place]; exact ready⟩
    | drains =>
      rw [place] at holds
      obtain ⟨faults', ready, place', next⟩ := calls holds.1 holds.2
      exact ⟨faults', by rw [place', place]; exact ⟨ready, next⟩⟩
    | idle | entered | allocates | submits | loops | checks | cancels | leaves | freed | crashed =>
      rw [place] at at_p
      cases at_p
  | enter_loop at_p =>
    rw [at_p] at holds
    exact ⟨faults, holds.running, holds.xfer, holds.xfer_buf⟩
  | leave_loop at_p off =>
    rw [at_p] at holds
    exact absurd off holds.running
  | @handled r at_p =>
    rw [at_p] at holds
    have ready : Ready s := holds
    cases r with
    | ok => exact ⟨faults, ready.running, ready.xfer, ready.xfer_buf⟩
    | interrupted => exact ⟨faults, ready.running, ready.xfer, ready.xfer_buf⟩
    | error => exact ⟨faults, ⟨ready.running, ready.xfer, ready.xfer_buf⟩, meets.2, meets.1⟩
  | check at_p =>
    rw [at_p] at holds
    have ready : Ready s := holds
    obtain ⟨ts, xfer, -⟩ := ready.xfer
    split
    · have there : s.xfer.isSome = true := by
        rw [xfer]
        rfl
      simp only [there, if_true]
      exact ⟨faults, ready.running, ready.xfer, ready.xfer_buf⟩
    · exact ⟨faults, ready.running, ready.xfer, ready.xfer_buf⟩
  | cancel at_p =>
    rw [at_p] at holds
    exact ⟨faults, holds.running, holds.xfer, holds.xfer_buf⟩
  | cancel_skip at_p =>
    rw [at_p] at holds
    exact ⟨faults, holds.running, holds.xfer, holds.xfer_buf⟩
  | settled at_p =>
    rw [at_p] at holds
    exact ⟨faults, holds.running, holds.xfer, holds.xfer_buf⟩
  | round_end at_p =>
    rw [at_p] at holds
    have ready : Ready s := holds
    have kept : ∀ place, Ready { s with place := place } :=
      fun _ => ⟨ready.running, ready.xfer, ready.xfer_buf⟩
    by_cases last : s.dev_lost = true ∨ s.next_status = .inactive
    · simp only [if_pos last]
      exact ⟨faults, kept _, last.elim meets id⟩
    · simp only [if_neg last]
      exact ⟨faults, kept _⟩
  | drained at_p =>
    rw [at_p] at holds
    exact ⟨faults, ⟨holds.1.running, holds.1.xfer, holds.1.xfer_buf⟩, holds.2, meets⟩
  | free at_p =>
    rw [at_p] at holds
    obtain ⟨ready, next, landed⟩ := holds
    exact ⟨(ready.free landed).trans faults, next, rfl, rfl⟩
  | return_async at_p =>
    rw [at_p] at holds
    exact ⟨faults, holds⟩

/-- Nothing is submitted with a null buffer, freed in flight or freed twice, and a read that
    returned left the device ready for the next one. -/
theorem read_async_sound {s : State} (run : Runs Step Meets State.start s) :
    s.heap.faults = [] ∧
    (s.place = .idle → s.async_status = .inactive ∧ s.xfer = none ∧ s.xfer_buf = none ∧
      ∀ buf_num buf_len, ∃ s', Step s (.read_async buf_num buf_len) s') := by
  have inv := run.keeps (fun _ _ _ inv meets step => inv.step meets step) Inv.start
  constructor
  · exact inv.faults
  · intro idle
    have holds := inv.holds
    rw [idle] at holds
    exact ⟨holds.1, holds.2.1, holds.2.2, fun _ _ => ⟨_, .read_async idle holds.1⟩⟩

theorem read_cancelled : ∃ s : State, s.place = .idle ∧ s.xfer_buf_num = 1 ∧
    s.async_status = .inactive ∧ s.heap.faults = [] := by
  let allocs : Allocs := ⟨true, fun _ => true, true, fun _ => true, fun _ => true⟩
  have start : Runs Step Meets State.start State.start := .refl
  have back := start
    |>.tail (a := Act.read_async 1 0) (.read_async rfl rfl)
    |>.tail (a := Act.begin_async 1 0) (.begin_async rfl)
    |>.tail (.alloc (a := allocs) rfl)
      ⟨rfl, rfl, fun _ _ => rfl, .inl (fun _ _ => rfl)⟩
    |>.tail (a := Act.submit true) (.submit rfl (by decide))
    |>.tail (.submitted rfl (by decide))
    |>.tail (.enter_loop rfl (by decide))
    |>.tail (a := Act.callback 0 .completed true)
      (.callback trivial rfl rfl) trivial
    |>.tail .cancel_async
    |>.tail (.handled (r := .ok) rfl)
    |>.tail (.check rfl)
    |>.tail (a := Act.cancel true) (.cancel rfl rfl (by decide) (by decide))
    |>.tail (a := Act.callback 0 .cancelled false)
      (.callback trivial rfl rfl) trivial
    |>.tail (.settled rfl)
    |>.tail (.round_end rfl (by decide)) nofun
    |>.tail (.enter_loop rfl (by decide))
    |>.tail (.handled (r := .ok) rfl)
    |>.tail (.check rfl)
    |>.tail (.cancel_skip rfl (by decide) (fun t at_0 => by
      obtain rfl := Option.some.inj (Option.some.inj at_0)
      rfl)) trivial
    |>.tail (.round_end rfl (by decide)) nofun
    |>.tail (.drained rfl) (by
      intro t member
      obtain rfl := List.mem_singleton.mp member
      rfl)
    |>.tail (.free rfl)
    |>.tail (.return_async rfl)
  exact ⟨_, rfl, rfl, ((read_async_sound back).2 rfl).1, (read_async_sound back).1⟩

/-- A transfer is submitted without a buffer, as nobody looks at what the allocation returned. One
    is freed in flight, as its events could not be handled. A read whose device is lost returns in
    the middle of its cancels, so no other read starts. -/
theorem read_async_fails :
    (∃ s, Runs Step (fun _ _ => True) State.start s ∧ .null_buffer ∈ s.heap.faults) ∧
    (∃ s, Runs Step (fun _ _ => True) State.start s ∧ .freed_in_flight ∈ s.heap.faults) ∧
    ∃ s, Runs Step (fun _ _ => True) State.start s ∧ s.place = .idle ∧ s.async_status = .canceling ∧
      ∀ buf_num buf_len s', ¬ Step s (.read_async buf_num buf_len) s' := by
  let allocs : Allocs := ⟨true, fun _ => true, true, fun _ => true, fun _ => true⟩
  let small : Allocs := ⟨true, fun _ => true, true, fun _ => false, fun _ => false⟩
  have start : Runs Step (fun _ _ => True) State.start State.start := .refl
  have entered := start.tail (a := Act.read_async 1 0) (.read_async rfl rfl)
  have one := entered.tail (a := Act.begin_async 1 0) (.begin_async rfl)
  have two := entered.tail (a := Act.begin_async 2 0) (.begin_async rfl)
  constructor
  · have alloc := one.tail (.alloc (a := small) rfl)
    have submit := alloc.tail (a := Act.submit true) (.submit rfl (by decide))
    exact ⟨_, submit, .head _⟩
  constructor
  · have alloc := one.tail (.alloc (a := allocs) rfl)
    have submitted := alloc
      |>.tail (a := Act.submit true) (.submit rfl (by decide))
      |>.tail (.submitted rfl (by decide))
    have loops := submitted.tail (.enter_loop rfl (by decide))
    have free := loops
      |>.tail (.handled (r := .error) rfl)
      |>.tail (.free rfl)
    exact ⟨_, free, .head _⟩
  · have alloc := two.tail (.alloc (a := allocs) rfl)
    have back := alloc
      |>.tail (a := Act.submit true) (.submit rfl (by decide))
      |>.tail (a := Act.submit true) (.submit rfl (by decide))
      |>.tail (.submitted rfl (by decide))
      |>.tail (.enter_loop rfl (by decide))
      |>.tail (a := Act.callback 0 .no_device false)
        (.callback trivial rfl rfl) trivial
      |>.tail (.handled (r := .ok) rfl)
      |>.tail (.check rfl)
      |>.tail (a := Act.cancel false) (.cancel rfl rfl (by decide) (by decide))
      |>.tail (.settled rfl)
      |>.tail (a := Act.cancel true) (.cancel rfl rfl (by decide) (by decide))
      |>.tail (a := Act.callback 1 .cancelled false)
        (.callback trivial rfl rfl) trivial
      |>.tail (.settled rfl)
      |>.tail (.round_end rfl (by decide))
      |>.tail (.drained rfl)
      |>.tail (.free rfl)
      |>.tail (.return_async rfl)
    refine ⟨_, back, rfl, rfl, ?_⟩
    intro buf_num buf_len s' step
    cases step with
    | read_async _ off => cases off

end Soapy.Rtl.AsyncRead
