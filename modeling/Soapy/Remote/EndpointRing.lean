import Soapy.Remote.StreamRecords

/-! # The buffers of an endpoint over whole runs

Handles are acquired and released by the user in any order, and a release may
name a handle that is not acquired. Whatever the calls were, the ring of handles
keeps its invariant, so no buffer that is still in use is handed out.
-/

namespace Soapy.Remote

open Lib

inductive EndpointCall where
  | acquireRecv (arrivals : Arrivals)
  | releaseRecv (h : BuffHandle)
  | acquireSend
  | releaseSend (grants : Grants) (h : BuffHandle) (numElemsOrErr flags : Int32) (timeNs : Int64)

def EndpointCall.released : EndpointCall → Option BuffHandle
  | .releaseRecv h | .releaseSend _ h _ _ _ => some h
  | .acquireRecv _ | .acquireSend => none

namespace Endpoint

def call (e : Endpoint) : EndpointCall → Option Endpoint
  | .acquireRecv arrivals => (e.acquireRecv arrivals).map (fun out => out.2.1)
  | .releaseRecv h => some (e.releaseRecv h)
  | .acquireSend => some e.acquireSend.2
  | .releaseSend grants h numElemsOrErr flags timeNs =>
    some (e.releaseSend grants h numElemsOrErr flags timeNs).2

def calls (e : Endpoint) (cs : List EndpointCall) : Option Endpoint := cs.foldlM call e

variable {e e' : Endpoint}

theorem call_ring {c : EndpointCall} (returns : e.call c = some e') :
    e'.ring = e.ring ∨ (e.ring.full = false ∧ e'.ring = e.ring.acquire) ∨
      ∃ h, e'.ring = e.ring.release h := by
  cases c with
  | acquireRecv arrivals =>
    obtain ⟨⟨got, after, rest⟩, called, rfl⟩ := Option.map_eq_some_iff.mp returns
    rcases acquireRecv_cases called with ⟨_, _, same⟩ | ⟨_, _, same⟩ | ⟨room, mid, same, _, last⟩
    · exact .inl (congrArg ring same)
    · obtain ⟨_, _, _, rfl⟩ := same
      exact .inl rfl
    · obtain ⟨_, _, _, rfl⟩ := same
      rw [last, accept_ring]
      split
      · exact .inr (.inl ⟨room, rfl⟩)
      · exact .inl rfl
  | releaseRecv h =>
    cases returns
    exact .inr (.inr ⟨h, rfl⟩)
  | acquireSend =>
    cases returns
    rw [acquireSend]
    split
    · exact .inl rfl
    · rename_i room
      exact .inr (.inl ⟨by simpa using room, rfl⟩)
  | releaseSend grants h numElemsOrErr flags timeNs =>
    cases returns
    exact .inr (.inr ⟨h, rfl⟩)

theorem call_released {c : EndpointCall} {h : BuffHandle} (named : c.released = some h)
    (returns : e.call c = some e') : e'.ring = e.ring.release h := by
  cases c with
  | acquireRecv | acquireSend => cases named
  | releaseRecv | releaseSend =>
    cases named
    cases returns
    rfl

theorem call_valid {c : EndpointCall} (valid : e.ring.Valid) (returns : e.call c = some e') :
    e'.ring.Valid := by
  rcases call_ring returns with same | ⟨room, same⟩ | ⟨h, same⟩
  · exact same ▸ valid
  · exact same ▸ valid.acquire room
  · exact same ▸ valid.release h

theorem calls_valid {cs : List EndpointCall} (valid : e.ring.Valid)
    (run : e.calls cs = some e') : e'.ring.Valid := by
  induction cs generalizing e with
  | nil =>
    cases run
    exact valid
  | cons c cs ih =>
    obtain ⟨mid, first, later⟩ := Option.bind_eq_some_iff.mp run
    exact ih (call_valid valid first) later

theorem calls_released {cs : List EndpointCall} (releases : ∀ c ∈ cs, c.released ≠ none)
    (run : e.calls cs = some e') {h : BuffHandle}
    (back : e.ring.acquired h = false ∨ ∃ c ∈ cs, c.released = some h) :
    e'.ring.acquired h = false := by
  induction cs generalizing e with
  | nil =>
    cases run
    exact back.resolve_right (by simp)
  | cons c cs ih =>
    obtain ⟨mid, first, later⟩ := Option.bind_eq_some_iff.mp run
    obtain ⟨x, named⟩ := Option.ne_none_iff_exists'.mp (releases c List.mem_cons_self)
    have ring := call_released named first
    refine ih (fun c member => releases c (List.mem_cons_of_mem _ member)) later ?_
    by_cases here : h = x
    · left
      rw [ring, here]
      exact Function.update_self ..
    · rcases back with free | ⟨c', member, named'⟩
      · left
        rw [ring]
        exact (Function.update_of_ne here ..).trans free
      · rcases List.mem_cons.mp member with rfl | member
        · rw [named] at named'
          exact absurd (Option.some.inj named').symm here
        · exact .inr ⟨c', member, named'⟩

end Endpoint

structure RingContract (e : Endpoint) : Prop where
  next : e.ring.nextHandleAcquire.val =
    (e.ring.nextHandleRelease.val + e.ring.numHandlesAcquired) % numBuffs
  bound : e.ring.numHandlesAcquired ≤ numBuffs
  window : ∀ h, e.ring.acquired h = true → ∃ k < e.ring.numHandlesAcquired,
    h.val = (e.ring.nextHandleRelease.val + k) % numBuffs
  /-- A handle that is handed out was free, and is marked. -/
  sendFresh : ∀ h, e.acquireSend.1.2 = some h →
    e.ring.acquired h = false ∧ e.acquireSend.2.ring.acquired h = true
  recvFresh : ∀ arrivals got e' rest, e.acquireRecv arrivals = some (got, e', rest) → 0 ≤ got.ret →
    ∃ h flags timeNs, got.outputs = some (h, flags, timeNs) ∧
      e.ring.acquired h = false ∧ e'.ring.acquired h = true
  /-- `acquireSend` fails exactly when the window is full. -/
  sendFails : e.acquireSend.1.2 = none ↔ e.ring.numHandlesAcquired = numBuffs
  sendError : e.ring.numHandlesAcquired = numBuffs → e.acquireSend = ((streamError, none), e)
  /-- `acquireRecv` fails when the window is full, and gives the count or the code of
      a whole record when it is not. -/
  recvError : e.ring.numHandlesAcquired = numBuffs → ∀ arrivals,
    e.acquireRecv arrivals = some (⟨streamError, none, none⟩, e, arrivals)
  recvRecord : e.ring.numHandlesAcquired ≠ numBuffs → ∀ record arrivals,
    Arrives e.config record arrivals →
    (StreamDatagramHeader.decode record).bytes.toNat ≤ record.length →
    ∃ got e' rest, e.acquireRecv arrivals = some (got, e', rest) ∧
      got.ret = (StreamDatagramHeader.decode record).elems.toInt32 ∧ got.outputs ≠ none
  released : ∀ cs e', (∀ c ∈ cs, EndpointCall.released c ≠ none) →
    (∀ h, e.ring.acquired h = true → ∃ c ∈ cs, EndpointCall.released c = some h) →
    e.calls cs = some e' → e'.ring.numHandlesAcquired = 0

namespace Endpoint

variable {e : Endpoint}

theorem full_iff : e.ring.full = true ↔ e.ring.numHandlesAcquired = numBuffs := by
  simp [HandleRing.full]

theorem acquire_marks (r : HandleRing numBuffs) : r.acquire.acquired r.nextHandleAcquire = true :=
  Function.update_self ..

theorem RingContract.of_valid (valid : e.ring.Valid) : RingContract e where
  next := congrArg Fin.val valid.next
  bound := valid.bound
  window h held := by
    obtain ⟨k, inside, same⟩ := valid.window h held
    exact ⟨k, inside, congrArg Fin.val same⟩
  sendFresh h handed := by
    rw [acquireSend] at handed ⊢
    split at handed
    · cases handed
    · rename_i room
      rw [if_neg room]
      cases handed
      exact ⟨valid.fresh (by simpa using room), acquire_marks _⟩
  recvFresh arrivals got e' rest returns counted := by
    rcases acquireRecv_cases returns with ⟨_, rfl, _⟩ | ⟨_, rfl, _⟩ | ⟨room, mid, same, rfl, rfl⟩
    · exact absurd counted (by decide)
    · exact absurd counted (by decide)
    · obtain ⟨_, _, _, rfl⟩ := same
      refine ⟨_, _, _, rfl, valid.fresh room, ?_⟩
      rw [accept_ring, if_pos counted]
      exact acquire_marks _
  sendFails := by
    rw [← full_iff, acquireSend]
    split
    · rename_i full
      simp only [full]
    · rename_i room
      simp [room]
  sendError full := by rw [acquireSend, if_pos (full_iff.mpr full)]
  recvError full arrivals := by rw [acquireRecv, if_pos (full_iff.mpr full)]
  recvRecord short record arrivals arrives enough := by
    have room : e.ring.full = false := by
      rw [Bool.eq_false_iff, ne_eq, full_iff]
      exact short
    obtain ⟨size, writes, later, header, inside, _, _, returns⟩ :=
      acquireRecv_arrives room arrives enough
    refine ⟨_, _, _, returns, ?_, Option.some_ne_none _⟩
    have read : (e.filled e.ring.nextHandleAcquire (record.take size) writes).header
        e.ring.nextHandleAcquire = .decode record :=
      filled_take_header header (le_trans header inside)
    simp only [accept, read]
  released cs e' releases named run := by
    refine (calls_valid valid run).empty (fun h => calls_released releases run ?_)
    cases held : e.ring.acquired h with
    | false => exact .inl rfl
    | true => exact .inr (named h held)

end Endpoint

open Endpoint in
/-- The contract holds after every sequence of calls on an endpoint of either
    direction. -/
theorem ring_contract (config : EndpointConfig) (actualWindow : Int32) (cs : List EndpointCall)
    (e : Endpoint)
    (run : (makeSend config).calls cs = some e ∨ (makeRecv config actualWindow).2.calls cs = some e) :
    RingContract e := by
  apply RingContract.of_valid
  rcases run with run | run
  · exact calls_valid .init run
  · exact calls_valid .init run

open Endpoint in
theorem secondHandle_contract :
    RingContract ((makeSend ⟨true, 1, 4, 1500⟩).acquireSend.2.acquireSend.2.releaseRecv 0) :=
  ring_contract ⟨true, 1, 4, 1500⟩ 65536 [.acquireSend, .acquireSend, .releaseRecv 0] _ (.inl rfl)

open Endpoint in
/-- Below a full window a failing socket gives the same error. -/
theorem failedRecv_with_room :
    ∃ e, (makeRecv ⟨true, 1, 4, 1500⟩ 65536).2.calls [] = some e ∧
      e.ring.numHandlesAcquired ≠ numBuffs ∧
      e.acquireRecv [none] = some (⟨streamError, none, none⟩, e, []) :=
  ⟨_, rfl, by decide, rfl⟩

end Soapy.Remote
