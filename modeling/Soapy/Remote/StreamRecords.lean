import Soapy.Remote.StreamEndpoint

/-! # Records on the stream socket

What `releaseSend` puts on the socket is one record, and what `acquireRecv` does
with one that arrives whole: as a single datagram, or as a stretch of the stream
that is cut into pieces in any way.
-/

namespace Soapy.Remote

open Lib

def Delivers (arrivals : Arrivals) (bs : Bytes) : Prop :=
  ∃ pieces : List Bytes, arrivals = pieces.map some ∧ [] ∉ pieces ∧ pieces.flatten = bs

/-- The record reaches the socket whole, and a datagram is within what `recv` is
    asked for. -/
def Arrives (c : EndpointConfig) (record : Bytes) (arrivals : Arrivals) : Prop :=
  streamHeaderSize ≤ record.length ∧
    if c.datagramMode then arrivals = [some record] ∧ record.length ≤ c.recvLength
    else Delivers arrivals record

section Stream

variable {arrivals : Arrivals} {bs : Bytes} {len : Nat}

theorem Delivers.cons {first rest : Bytes} {arrivals : Arrivals} (some_ : first ≠ [])
    (later : Delivers arrivals rest) : Delivers (some first :: arrivals) (first ++ rest) := by
  obtain ⟨pieces, rfl, nonempty, rfl⟩ := later
  refine ⟨first :: pieces, rfl, ?_, rfl⟩
  simpa [eq_comm] using And.intro some_ nonempty

theorem Delivers.split (delivers : Delivers arrivals bs) (more : bs ≠ []) :
    ∃ first later rest, arrivals = some first :: later ∧ first ≠ [] ∧ bs = first ++ rest ∧
      Delivers later rest := by
  obtain ⟨pieces, rfl, nonempty, rfl⟩ := delivers
  cases pieces with
  | nil => exact absurd rfl more
  | cons first pieces =>
    rw [List.mem_cons, not_or] at nonempty
    exact ⟨first, _, _, rfl, fun none => nonempty.1 none.symm, rfl, pieces, rfl, nonempty.2, rfl⟩

theorem recvSome_delivers (delivers : Delivers arrivals bs) (more : bs ≠ []) (asked : 0 < len) :
    ∃ found later rest, recvSome false len arrivals = some (some found, later) ∧ found ≠ [] ∧
      found.length ≤ len ∧ bs = found ++ rest ∧ Delivers later rest := by
  obtain ⟨first, later, rest, rfl, nonempty, rfl, behind⟩ := delivers.split more
  have positive : 0 < first.length := List.length_pos_iff.mpr nonempty
  by_cases fits : first.length ≤ len
  · refine ⟨first, later, rest, ?_, nonempty, fits, rfl, behind⟩
    simp [recvSome, fits, List.take_of_length_le fits]
  · refine ⟨first.take len, some (first.drop len) :: later, first.drop len ++ rest, ?_, ?_, ?_, ?_,
      ?_⟩
    · simp [recvSome, fits]
    · exact List.length_pos_iff.mp (by rw [List.length_take]; omega)
    · exact List.length_take_le ..
    · rw [← List.append_assoc, List.take_append_drop]
    · exact .cons (List.length_pos_iff.mp (by rw [List.length_drop]; omega)) behind

theorem recvAll_delivers (delivers : Delivers arrivals bs) (asked : 0 < len)
    (enough : len ≤ bs.length) :
    ∃ later, recvAll len arrivals = some (some (bs.take len), later) ∧
      Delivers later (bs.drop len) := by
  obtain ⟨pieces, rfl, nonempty, rfl⟩ := delivers
  induction pieces generalizing len with
  | nil =>
    simp only [List.flatten_nil, List.length_nil] at enough
    omega
  | cons first pieces ih =>
    rw [List.mem_cons, not_or] at nonempty
    have some_ : first ≠ [] := fun none => nonempty.1 none.symm
    by_cases short : first.length < len
    · rw [List.flatten_cons, List.length_append] at enough
      obtain ⟨later, received, delivers⟩ :=
        ih (show 0 < len - first.length by omega) nonempty.2 (by omega)
      refine ⟨later, ?_, ?_⟩
      · simp [recvAll, some_, short, received, List.take_append, List.take_of_length_le short.le]
      · rwa [List.flatten_cons, List.drop_append, List.drop_of_length_le short.le, List.nil_append]
    · by_cases fits : first.length ≤ len
      · have same : first.length = len := by omega
        refine ⟨pieces.map some, ?_, pieces, rfl, nonempty.2, ?_⟩
        · simp [recvAll, recvSome, some_, ← same]
        · rw [List.flatten_cons, List.drop_left' same]
      · refine ⟨some (first.drop len) :: pieces.map some, ?_, ?_⟩
        · simp [recvAll, recvSome, some_, short, fits, List.take_append,
            Nat.sub_eq_zero_of_le (Nat.le_of_not_le fits)]
        · rw [List.flatten_cons, List.drop_append_of_le_length (by omega)]
          exact .cons (List.length_pos_iff.mp (by rw [List.length_drop]; omega))
            ⟨pieces, rfl, nonempty.2, rfl⟩

end Stream

variable {bytes bytesRecvd fuel : Nat}

namespace Endpoint

variable {e : Endpoint} {h : BuffHandle} {arrivals : Arrivals} {record : Bytes}

@[simp] theorem filled_buff (bs : Bytes) (writes : List (Nat × Nat)) :
    (e.filled h bs writes).buff h = (e.buff h).store 0 bs :=
  Function.update_self ..

variable {bs : Bytes} {writes : List (Nat × Nat)}

theorem filled_header
    (whole : streamHeaderSize ≤ bs.length) :
    (e.filled h bs writes).header h = .decode bs := by
  have front := Memory.load_store (e.buff h) 0 0 streamHeaderSize bs (by omega)
  rw [header, filled_buff, front, List.drop_zero,
    StreamDatagramHeader.decode_take _ (le_refl _)]

theorem filled_take_header {record : Bytes} {size : Nat}
    (header : streamHeaderSize ≤ size) (whole : streamHeaderSize ≤ record.length) :
    (e.filled h (record.take size) writes).header h = .decode record := by
  have front : streamHeaderSize ≤ (record.take size).length := by
    rw [List.length_take]
    omega
  rw [filled_header front, StreamDatagramHeader.decode_take _ header]

theorem filled_store {more : Bytes} :
    (e.filled h bs writes).store h bs.length more =
      e.filled h (bs ++ more) (writes ++ [(bs.length, more.length)]) := by
  have joined := Memory.store_append (m := e.buff h) 0 bs more
  rw [Nat.zero_add] at joined
  simp [filled, store, joined]

theorem recvRest_done (done : bytes ≤ bytesRecvd) :
    recvRest h bytes fuel bytesRecvd e arrivals = some (true, e, arrivals) := by
  cases fuel with
  | zero | succ => rw [recvRest, if_pos done]

theorem recvRest_delivers (bytes fuel : Nat) (got : Bytes) (writes : List (Nat × Nat))
    (delivers : Delivers arrivals bs) (enough : bytes ≤ got.length + bs.length)
    (fueled : bytes ≤ got.length + fuel) (inside : ∀ w ∈ writes, w.1 + w.2 ≤ max got.length bytes) :
    ∃ writes' later,
      recvRest h bytes fuel got.length (e.filled h got writes) arrivals =
        some (true, e.filled h (got ++ bs.take (bytes - got.length)) writes', later) ∧
      ∀ w ∈ writes', w.1 + w.2 ≤ max got.length bytes := by
  induction fuel generalizing got bs arrivals writes with
  | zero =>
    have done : bytes ≤ got.length := by omega
    refine ⟨writes, arrivals, ?_, inside⟩
    rw [recvRest_done done, Nat.sub_eq_zero_of_le done, List.take_zero, List.append_nil]
  | succ fuel ih =>
    by_cases done : bytes ≤ got.length
    · refine ⟨writes, arrivals, ?_, inside⟩
      rw [recvRest_done done, Nat.sub_eq_zero_of_le done, List.take_zero, List.append_nil]
    · have more : bs ≠ [] := List.length_pos_iff.mp (by omega)
      have asked : 0 < min socketBuffMax (bytes - got.length) := by
        unfold socketBuffMax
        omega
      obtain ⟨found, later, rest, received, some_, few, rfl, behind⟩ :=
        recvSome_delivers delivers more asked
      have positive : 0 < found.length := List.length_pos_iff.mpr some_
      rw [List.length_append] at enough
      have bounded : ∀ w ∈ writes ++ [(got.length, found.length)],
          w.1 + w.2 ≤ max (got ++ found).length bytes := by
        intro w member
        rw [List.length_append]
        rcases List.mem_append.mp member with old | new
        · have := inside w old
          omega
        · rw [List.mem_singleton.mp new]
          omega
      obtain ⟨writes', last, filledAll, within⟩ := ih (got ++ found) _ behind
        (by rw [List.length_append]; omega) (by rw [List.length_append]; omega) bounded
      refine ⟨writes', last, ?_, ?_⟩
      · have left : bytes - (got ++ found).length = bytes - got.length - found.length := by
          rw [List.length_append, Nat.sub_add_eq]
        have split : (found ++ rest).take (bytes - got.length) =
            found ++ rest.take (bytes - got.length - found.length) := by
          have all : found.length ≤ bytes - got.length := by omega
          rw [List.take_append, List.take_of_length_le all]
        rw [left, List.append_assoc, ← split, List.length_append] at filledAll
        rw [recvRest, if_neg done]
        simp [received, some_, filled_store, filledAll]
      · intro w member
        have := within w member
        rw [List.length_append] at this
        omega

/-- A datagram is received as far as it fits; an error when it is shorter than the
    header in the buffer then says. -/
theorem receive_datagram (mode : e.config.datagramMode = true) {found : Bytes} (rest : Arrivals)
    (same : record.take e.config.recvLength = found) :
    e.receive h (some record :: rest) =
      some (decide (((e.filled h found [(0, found.length)]).header h).bytes.toNat ≤ found.length),
        e.filled h found [(0, found.length)], rest) := by
  have first : recvSome true e.config.recvLength (some record :: rest) = some (some found, rest) := by
    simp [recvSome, same]
  have mode' : (e.filled h found [(0, found.length)]).config.datagramMode = true := mode
  simp only [receive, mode, if_true, first, checkHeader, mode', Bool.true_and]
  by_cases complete : ((e.filled h found [(0, found.length)]).header h).bytes.toNat ≤ found.length
  · rw [if_neg (by simpa using complete), recvRest_done complete, decide_eq_true complete]
  · rw [if_pos (by simpa using complete), decide_eq_false complete]

theorem receive_delivers (mode : e.config.datagramMode = false) (delivers : Delivers arrivals record)
    (whole : streamHeaderSize ≤ record.length)
    (enough : (StreamDatagramHeader.decode record).bytes.toNat ≤ record.length) :
    ∃ writes later,
      e.receive h arrivals = some (true, e.filled h (record.take
        (max streamHeaderSize (StreamDatagramHeader.decode record).bytes.toNat)) writes, later) ∧
      ∀ w ∈ writes,
        w.1 + w.2 ≤ max streamHeaderSize (StreamDatagramHeader.decode record).bytes.toNat := by
  obtain ⟨later, received, delivers⟩ := recvAll_delivers delivers (by decide) whole
  have size : (record.take streamHeaderSize).length = streamHeaderSize := by
    rw [List.length_take, Nat.min_eq_left whole]
  have header : (e.filled h (record.take streamHeaderSize)
      [(0, (record.take streamHeaderSize).length)]).header h = .decode record :=
    filled_take_header (le_refl _) whole
  have mode' : (e.filled h (record.take streamHeaderSize)
      [(0, (record.take streamHeaderSize).length)]).config.datagramMode = false := mode
  obtain ⟨writes, last, filledAll, within⟩ := recvRest_delivers (e := e) (h := h)
    (StreamDatagramHeader.decode record).bytes.toNat
    (StreamDatagramHeader.decode record).bytes.toNat (record.take streamHeaderSize)
    [(0, (record.take streamHeaderSize).length)] delivers
    (by rw [size, List.length_drop]; omega) (by omega)
    (by intro w only; rw [List.mem_singleton.mp only]; omega)
  rw [size] at within
  refine ⟨writes, last, ?_, within⟩
  have joined : record.take streamHeaderSize ++ (record.drop streamHeaderSize).take
      ((StreamDatagramHeader.decode record).bytes.toNat - (record.take streamHeaderSize).length) =
      record.take (max streamHeaderSize (StreamDatagramHeader.decode record).bytes.toNat) := by
    have sum : streamHeaderSize + ((StreamDatagramHeader.decode record).bytes.toNat -
        streamHeaderSize) = max streamHeaderSize (StreamDatagramHeader.decode record).bytes.toNat := by
      omega
    rw [size, ← List.take_add, sum]
  rw [joined] at filledAll
  simp only [receive, mode, Bool.false_eq_true, if_false, received, checkHeader, header, mode',
    Bool.false_and]
  exact filledAll

/-- A record that arrives whole is received, its first `size` bytes at least as far
    as its header says. -/
theorem receive_arrives (arrives : Arrives e.config record arrivals)
    (enough : (StreamDatagramHeader.decode record).bytes.toNat ≤ record.length) :
    ∃ size writes later, streamHeaderSize ≤ size ∧ size ≤ record.length ∧
      (StreamDatagramHeader.decode record).bytes.toNat ≤ size ∧
      e.receive h arrivals = some (true, e.filled h (record.take size) writes, later) ∧
      ∀ w ∈ writes, w.1 + w.2 ≤ size := by
  obtain ⟨whole, arrives⟩ := arrives
  cases mode : e.config.datagramMode with
  | true =>
    rw [mode, if_pos rfl] at arrives
    obtain ⟨rfl, fits⟩ := arrives
    have all : record.take e.config.recvLength = record := List.take_of_length_le fits
    have received := receive_datagram (h := h) mode [] all
    rw [filled_header whole, decide_eq_true enough] at received
    refine ⟨record.length, [(0, record.length)], [], whole, le_refl _, enough, ?_, ?_⟩
    · rw [List.take_length]
      exact received
    · intro w only
      rw [List.mem_singleton.mp only]
      omega
  | false =>
    rw [mode, if_neg Bool.false_ne_true] at arrives
    obtain ⟨writes, later, received, within⟩ := receive_delivers (h := h) mode arrives whole enough
    exact ⟨_, writes, later, le_max_left .., max_le whole enough, le_max_right .., received, within⟩

def SameState (e e' : Endpoint) : Prop :=
  ∃ buff receiveInitial writes,
    e' = { e with buff := buff, receiveInitial := receiveInitial, writes := writes }

theorem SameState.refl (e : Endpoint) : e.SameState e := ⟨_, _, _, rfl⟩

theorem SameState.trans {e₁ e₂ e₃ : Endpoint} (first : e₁.SameState e₂) (next : e₂.SameState e₃) :
    e₁.SameState e₃ := by
  obtain ⟨_, _, _, rfl⟩ := first
  obtain ⟨_, _, _, rfl⟩ := next
  exact ⟨_, _, _, rfl⟩

variable {e' : Endpoint} {rest : Arrivals}

theorem recvRest_same {ok : Bool}
    (received : recvRest h bytes fuel bytesRecvd e arrivals = some (ok, e', rest)) :
    e.SameState e' := by
  induction fuel generalizing e arrivals bytesRecvd with
  | zero =>
    rw [recvRest] at received
    split at received
    · cases received
      exact .refl _
    · cases received
  | succ fuel ih =>
    rw [recvRest] at received
    split at received
    · cases received
      exact .refl _
    · split at received
      · cases received
      · cases received
        exact .refl _
      · split at received
        · cases received
        · exact .trans ⟨_, _, _, rfl⟩ (ih received)

theorem receive_same {ok : Bool}
    (received : e.receive h arrivals = some (ok, e', rest)) : e.SameState e' := by
  simp only [receive] at received
  split at received
  · cases received
  · cases received
    exact .refl _
  · rw [checkHeader] at received
    split at received
    · cases received
      exact ⟨_, _, _, rfl⟩
    · exact .trans ⟨_, _, _, rfl⟩ (recvRest_same received)

theorem acquireRecv_cases {got : Acquired}
    (returns : e.acquireRecv arrivals = some (got, e', rest)) :
    (e.ring.full = true ∧ got = ⟨streamError, none, none⟩ ∧ e' = e) ∨
    (e.ring.full = false ∧ got = ⟨streamError, none, none⟩ ∧ e.SameState e') ∨
    (e.ring.full = false ∧ ∃ mid, e.SameState mid ∧
      got = (mid.accept e.ring.nextHandleAcquire).1 ∧
      e' = (mid.accept e.ring.nextHandleAcquire).2) := by
  rw [acquireRecv] at returns
  split at returns
  · rename_i full
    cases returns
    exact .inl ⟨full, rfl, rfl⟩
  · rename_i room
    rw [Bool.not_eq_true] at room
    split at returns
    · cases returns
    · rename_i received
      cases returns
      exact .inr (.inl ⟨room, rfl, receive_same received⟩)
    · rename_i received
      cases returns
      exact .inr (.inr ⟨room, _, receive_same received, rfl, rfl⟩)

theorem acquireRecv_received (room : e.ring.full = false) {mid : Endpoint}
    (received : e.receive e.ring.nextHandleAcquire arrivals = some (true, mid, rest)) :
    e.acquireRecv arrivals = some ((mid.accept e.ring.nextHandleAcquire).1,
      (mid.accept e.ring.nextHandleAcquire).2, rest) := by
  rw [acquireRecv, if_neg (by simp [room]), received]

theorem acquireRecv_failed (room : e.ring.full = false) {mid : Endpoint}
    (failed : e.receive e.ring.nextHandleAcquire arrivals = some (false, mid, rest)) :
    e.acquireRecv arrivals = some (⟨streamError, none, none⟩, mid, rest) := by
  rw [acquireRecv, if_neg (by simp [room]), failed]

theorem acquireRecv_arrives (room : e.ring.full = false) (arrives : Arrives e.config record arrivals)
    (enough : (StreamDatagramHeader.decode record).bytes.toNat ≤ record.length) :
    ∃ size writes later, streamHeaderSize ≤ size ∧ size ≤ record.length ∧
      (StreamDatagramHeader.decode record).bytes.toNat ≤ size ∧
      (∀ w ∈ writes, w.1 + w.2 ≤ size) ∧
      e.acquireRecv arrivals =
        some (((e.filled e.ring.nextHandleAcquire (record.take size) writes).accept
            e.ring.nextHandleAcquire).1,
          ((e.filled e.ring.nextHandleAcquire (record.take size) writes).accept
            e.ring.nextHandleAcquire).2, later) := by
  obtain ⟨size, writes, later, header, inside, enough', received, within⟩ :=
    receive_arrives (h := e.ring.nextHandleAcquire) arrives enough
  exact ⟨size, writes, later, header, inside, enough', within, acquireRecv_received room received⟩

@[simp] theorem trackSequence_ring (sequence : UInt32) :
    (e.trackSequence sequence).2.ring = e.ring := by
  simp only [trackSequence, sendACK]
  split <;> rfl

@[simp] theorem accept_buff : (e.accept h).2.buff = e.buff := by
  simp only [accept, trackSequence, sendACK]
  split <;> split <;> rfl

@[simp] theorem accept_writes : (e.accept h).2.writes = e.writes := by
  simp only [accept, trackSequence, sendACK]
  split <;> split <;> rfl

theorem accept_ring : (e.accept h).2.ring =
    if 0 ≤ (e.accept h).1.ret then e.ring.acquire else e.ring := by
  by_cases counted : 0 ≤ (e.header h).elems.toInt32
  · simp [accept, counted, trackSequence_ring]
  · simp [accept, counted, trackSequence_ring]

section Send

variable {datagramMode : Bool} {grants : Grants}

section

variable (works : ∀ n, (grants n).isSome)
include works

theorem sendChunks_flatten {rest : Bytes} (enough : rest.length ≤ fuel) :
    (sendChunks datagramMode grants fuel rest).flatten = rest := by
  induction fuel generalizing rest with
  | zero =>
    have none : rest = [] := List.length_eq_zero_iff.mp (by omega)
    rw [none]
    rfl
  | succ fuel ih =>
    by_cases done : rest = []
    · rw [done]
      rfl
    obtain ⟨n, granted⟩ := Option.isSome_iff_exists.mp (works rest.length)
    have nonempty : 0 < rest.length := List.length_pos_iff.mpr done
    have progress : 0 < min socketBuffMax rest.length := by
      unfold socketBuffMax
      omega
    simp only [sendChunks, List.isEmpty_iff, done, if_false, granted, List.flatten_cons]
    rw [ih, List.take_append_drop]
    rw [List.length_drop]
    split <;> omega

theorem sendChunks_datagram {record : Bytes} (some_ : record ≠ []) (enough : record.length ≤ fuel) :
    ∃ later, sendChunks true grants fuel record = record.take socketBuffMax :: later := by
  have nonempty : 0 < record.length := List.length_pos_iff.mpr some_
  obtain ⟨n, granted⟩ := Option.isSome_iff_exists.mp (works record.length)
  cases fuel with
  | zero => omega
  | succ fuel =>
    refine ⟨sendChunks true grants fuel (record.drop (min socketBuffMax record.length)), ?_⟩
    simp only [sendChunks, List.isEmpty_iff, some_, if_false, if_true, granted]
    rw [← List.take_take, List.take_length]

theorem releaseSend_flatten (numElemsOrErr flags : Int32) (timeNs : Int64) :
    (e.releaseSend grants h numElemsOrErr flags timeNs).1.flatten =
      ((e.buff h).store 0 (e.sendHeader numElemsOrErr flags timeNs).encode).load 0
        (e.config.sendBytes numElemsOrErr).toNat := by
  have loaded : (e.store h 0 (e.sendHeader numElemsOrErr flags timeNs).encode).buff h =
      (e.buff h).store 0 (e.sendHeader numElemsOrErr flags timeNs).encode :=
    Function.update_self ..
  simp only [releaseSend, loaded]
  exact sendChunks_flatten works (by rw [Memory.load_length])

theorem releaseSend_length (numElemsOrErr flags : Int32) (timeNs : Int64) :
    (e.releaseSend grants h numElemsOrErr flags timeNs).1.flatten.length =
      (e.config.sendBytes numElemsOrErr).toNat := by
  rw [releaseSend_flatten works, Memory.load_length]

theorem releaseSend_datagram (mode : e.config.datagramMode = true)
    (numElemsOrErr flags : Int32) (timeNs : Int64)
    (some_ : 0 < (e.config.sendBytes numElemsOrErr).toNat) :
    ∃ later, (e.releaseSend grants h numElemsOrErr flags timeNs).1 =
      (e.releaseSend grants h numElemsOrErr flags timeNs).1.flatten.take socketBuffMax :: later := by
  have length := releaseSend_length (e := e) (h := h) works numElemsOrErr flags timeNs
  have all := releaseSend_flatten (e := e) (h := h) works numElemsOrErr flags timeNs
  rw [all] at length ⊢
  have loaded : (e.store h 0 (e.sendHeader numElemsOrErr flags timeNs).encode).buff h =
      (e.buff h).store 0 (e.sendHeader numElemsOrErr flags timeNs).encode :=
    Function.update_self ..
  simp only [releaseSend, loaded, mode]
  exact sendChunks_datagram works (List.length_pos_iff.mp (by omega)) length.le

theorem releaseSend_header (numElemsOrErr flags : Int32)
    (timeNs : Int64) (whole : streamHeaderSize ≤ (e.config.sendBytes numElemsOrErr).toNat) :
    StreamDatagramHeader.decode (e.releaseSend grants h numElemsOrErr flags timeNs).1.flatten =
      e.sendHeader numElemsOrErr flags timeNs := by
  have front := Memory.load_store (e.buff h) 0 0 streamHeaderSize
    (e.sendHeader numElemsOrErr flags timeNs).encode
    (by rw [StreamDatagramHeader.encode_length]; omega)
  rw [List.drop_zero, List.take_of_length_le (by rw [StreamDatagramHeader.encode_length])] at front
  have encoded := StreamDatagramHeader.decode_encode (e.sendHeader numElemsOrErr flags timeNs) []
  rw [List.append_nil] at encoded
  rw [releaseSend_flatten works, ← StreamDatagramHeader.decode_take _ (le_refl _),
    Memory.load_take whole, front, encoded]

end

theorem sendHeader_bytes_le (numElemsOrErr flags : Int32) (timeNs : Int64) :
    (e.sendHeader numElemsOrErr flags timeNs).bytes.toNat ≤
      (e.config.sendBytes numElemsOrErr).toNat := by
  rw [sendHeader, UInt64.toNat_toUInt32]
  exact Nat.mod_le ..

end Send

end Endpoint

section Append

variable {arrivals rest : Arrivals} {got : Option Bytes}

variable (more : Arrivals)

theorem recvSome_append {datagramMode : Bool} {len : Nat}
    (returns : recvSome datagramMode len arrivals = some (got, rest)) :
    recvSome datagramMode len (arrivals ++ more) = some (got, rest ++ more) := by
  cases arrivals with
  | nil => cases returns
  | cons first arrivals =>
    cases first with
    | none =>
      cases returns
      rfl
    | some found =>
      rw [List.cons_append, recvSome]
      rw [recvSome] at returns
      split at returns
      · rename_i whole
        cases returns
        rw [if_pos whole]
      · rename_i part
        cases returns
        rw [if_neg part]
        rfl

theorem recvAll_append {len : Nat} (returns : recvAll len arrivals = some (got, rest)) :
    recvAll len (arrivals ++ more) = some (got, rest ++ more) := by
  induction arrivals generalizing len got rest with
  | nil => cases returns
  | cons first arrivals ih =>
    cases first with
    | none =>
      cases returns
      rfl
    | some found =>
      rw [List.cons_append, recvAll]
      rw [recvAll] at returns
      split at returns
      · rename_i ended
        cases returns
        rw [if_pos ended]
      · rename_i going
        rw [if_neg going]
        split at returns
        · rename_i short
          rw [if_pos short]
          split at returns
          · cases returns
          · rename_i later
            cases returns
            rw [ih later]
          · rename_i later
            cases returns
            rw [ih later]
            rfl
        · rename_i enough
          rw [if_neg enough]
          exact recvSome_append more returns

namespace Endpoint

variable {e e' : Endpoint} {h : BuffHandle} {ok : Bool}

theorem recvRest_append
    (returns : recvRest h bytes fuel bytesRecvd e arrivals = some (ok, e', rest)) :
    recvRest h bytes fuel bytesRecvd e (arrivals ++ more) = some (ok, e', rest ++ more) := by
  induction fuel generalizing e arrivals bytesRecvd with
  | zero =>
    rw [recvRest] at returns ⊢
    split at returns
    · rename_i done
      cases returns
      rw [if_pos done]
    · cases returns
  | succ fuel ih =>
    rw [recvRest] at returns ⊢
    split at returns
    · rename_i done
      cases returns
      rw [if_pos done]
    · rename_i going
      rw [if_neg going]
      split at returns
      · cases returns
      · rename_i received
        cases returns
        rw [recvSome_append more received]
      · rename_i received
        rw [recvSome_append more received]
        split at returns
        · cases returns
        · rename_i some_
          dsimp only
          rw [if_neg some_]
          exact ih returns

theorem receive_append (returns : e.receive h arrivals = some (ok, e', rest)) :
    e.receive h (arrivals ++ more) = some (ok, e', rest ++ more) := by
  have first {got : Option Bytes} {later : Arrivals}
      (front : (if e.config.datagramMode then recvSome true e.config.recvLength arrivals
        else recvAll streamHeaderSize arrivals) = some (got, later)) :
      (if e.config.datagramMode then recvSome true e.config.recvLength (arrivals ++ more)
        else recvAll streamHeaderSize (arrivals ++ more)) = some (got, later ++ more) := by
    split at front
    · rename_i mode
      rw [if_pos mode]
      exact recvSome_append more front
    · rename_i mode
      rw [if_neg mode]
      exact recvAll_append more front
  simp only [receive] at returns ⊢
  split at returns
  · cases returns
  · rename_i front
    cases returns
    rw [first front]
  · rename_i front
    rw [first front]
    dsimp only
    rw [checkHeader] at returns ⊢
    split at returns
    · rename_i short
      cases returns
      rw [if_pos short]
    · rename_i rest_
      rw [if_neg rest_]
      exact recvRest_append more returns

theorem acquireRecv_append {got : Acquired}
    (returns : e.acquireRecv arrivals = some (got, e', rest)) :
    e.acquireRecv (arrivals ++ more) = some (got, e', rest ++ more) := by
  rw [acquireRecv] at returns ⊢
  split at returns
  · rename_i full
    cases returns
    rw [if_pos full]
  · rename_i room
    rw [if_neg room]
    split at returns
    · cases returns
    · rename_i received
      cases returns
      rw [receive_append more received]
    · rename_i received
      cases returns
      rw [receive_append more received]

end Endpoint

end Append

end Soapy.Remote
