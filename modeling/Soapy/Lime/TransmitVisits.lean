import Soapy.Lime.TransmitRounds

/-! # One round of the transmit loop

A visit says what it leaves in the packets of the loop. From that the packet that a round
makes conveys what the round has popped, if its packets agree.
-/

namespace Soapy.Lime

open Lib

namespace TransmitLoop

variable {t : TxSetup} {B : Fin 2 → Nat} {s s' : TransmitLoop t B} {ch : Fin 2}
  {v : Visit t.maxSamplesBatch}
  {uninitialised : Fin 2 → Buffer Complex16 t.maxSamplesBatch}

theorem maxSamplesBatch_pos (t : TxSetup) : 0 < t.maxSamplesBatch := by
  apply Nat.pos_of_ne_zero
  intro none
  have room := @TxSetup.frame_room t
  rw [none, Nat.zero_mul] at room
  exact absurd room (by decide)

structure Visited (s : TransmitLoop t B) (ch : Fin 2) (v : Visit t.maxSamplesBatch)
    (s' : TransmitLoop t B) : Prop where
  visits : s'.visits = s.visits ++ [v]
  has_samples : s'.has_samples = (s.has_samples || v.packet.isSome)
  payloadSize : s'.payloadSize = t.sizeAfter s.payloadSize v
  others : ∀ ind, ind ≠ t.ind ch → s'.packets ind = s.packets ind
  left : v.Left (s'.packets (t.ind ch)).samples
  keeps : v.Keeps → (s'.packets (t.ind ch)).samples = (s.packets (t.ind ch)).samples
  popped : ∀ ch', s'.popped ch' = s.popped ch' ++ if ch' = ch then v.packet.toList else []
  complete : ∀ p, v.packet = some p → p.Complete
  header : ∀ p, v.packet = some p →
    (s'.packets (t.ind ch)).timestamp = p.timestamp ∧ (s'.packets (t.ind ch)).flags = p.flags
  idle : v = .unused → s'.packets = s.packets
  filling : s'.filling = s.filling
  transfer : s'.transfer = s.transfer
  sent : s'.sent = s.sent

theorem visited_unused (s : TransmitLoop t B) (ch : Fin 2) :
    s.Visited ch .unused (s.visit .unused) where
  visits := rfl
  has_samples := (Bool.or_false _).symm
  payloadSize := rfl
  others _ _ := rfl
  left := trivial
  keeps _ := rfl
  popped ch' := by simp [visit, Visit.packet]
  complete _ none := by cases none
  header _ none := by cases none
  idle _ := rfl
  filling := rfl
  transfer := rfl
  sent := rfl

theorem visited_silence (s : TransmitLoop t B) (ch : Fin 2) :
    s.Visited ch .inactive (s.silence ch) where
  visits := rfl
  has_samples := (Bool.or_false _).symm
  payloadSize := rfl
  others ind other := Function.update_of_ne other _ _
  left k := by simp [silence, visit, setPacket, SamplesPacket.clearFrom]
  keeps stays := stays.elim
  popped ch' := by simp [silence, visit, setPacket, Visit.packet]
  complete _ none := by cases none
  header _ none := by cases none
  idle unused := by cases unused
  filling := rfl
  transfer := rfl
  sent := rfl

theorem account_full {ind : Fin 2} (full : (s.packets ind).last = t.maxSamplesBatch) :
    s.account ind = { s with has_samples := true } := by
  rw [account, if_pos full]

theorem account_short {ind : Fin 2} (short : (s.packets ind).last ≠ t.maxSamplesBatch)
    (burst : (s.packets ind).flags &&& END_BURST ≠ 0) :
    s.account ind =
      { s.setPacket ind ((s.packets ind).clearFrom (s.packets ind).last) with
        payloadSize := t.shortPayload (s.packets ind).last
        has_samples := true } := by
  rw [account, if_neg short, if_neg burst]

theorem account_nothing {ind : Fin 2} (empty : (s.packets ind).last = 0)
    (flags : (s.packets ind).flags = 0) : s.account ind = s := by
  have short : (s.packets ind).last ≠ t.maxSamplesBatch := by
    rw [empty]
    exact ne_of_lt (maxSamplesBatch_pos t)
  rw [account, if_neg short, if_pos (by rw [flags]; rfl)]

theorem visited_expire (s : TransmitLoop t B) (ch : Fin 2) :
    s.Visited ch .timeout (s.expire ch) := by
  have packet : (s.popNothing ch).packets (t.ind ch) =
      { s.packets (t.ind ch) with last := 0, flags := 0 } := Function.update_self ..
  have nothing : s.expire ch = s.popNothing ch := by
    apply account_nothing
    · rw [packet]
    · rw [packet]
  rw [nothing]
  constructor
  · rfl
  · exact (Bool.or_false _).symm
  · rfl
  · exact fun _ other => Function.update_of_ne other _ _
  · trivial
  · intro _
    rw [packet]
  · intro ch'
    simp [popNothing, visit, setPacket, setFifo, Visit.packet]
  · exact fun _ none => by cases none
  · exact fun _ none => by cases none
  · exact fun unused => by cases unused
  · rfl
  · rfl
  · rfl

variable [∀ ch, NeZero (B ch)]

/-- The packet that `pop` takes. -/
def head (s : TransmitLoop t B) (ch : Fin 2) : SamplesPacket Complex16 t.maxSamplesBatch :=
  ((s.fifo ch).popPacket (s.packets (t.ind ch))).2

theorem pop_packet (s : TransmitLoop t B) (ch : Fin 2) : (s.pop ch).packets (t.ind ch) = s.head ch :=
  Function.update_self ..

theorem pop_others (s : TransmitLoop t B) {ind : Fin 2} (other : ind ≠ t.ind ch) :
    (s.pop ch).packets ind = s.packets ind :=
  Function.update_of_ne other _ _

theorem pop_popped (s : TransmitLoop t B) (ch ch' : Fin 2) :
    (s.pop ch).popped ch' = s.popped ch' ++ if ch' = ch then [s.head ch] else [] := by
  by_cases here : ch' = ch
  · subst here
    rw [if_pos rfl]
    exact Function.update_self ..
  · rw [if_neg here, List.append_nil]
    exact Function.update_of_ne here _ _

theorem visited_take (complete : (s.head ch).Complete) :
    s.Visited ch (.popped (s.head ch)) (s.take ch) := by
  have packet := pop_packet s ch
  by_cases full : (s.head ch).last = t.maxSamplesBatch
  · rw [← packet] at full
    rw [take, account_full full]
    rw [packet] at full
    constructor
    · rfl
    · exact (Bool.or_true _).symm
    · exact (if_pos full).symm
    · exact fun _ other => pop_others s other
    · intro k
      change ((s.pop ch).packets (t.ind ch)).samples k = _
      rw [packet, full, if_pos k.isLt]
    · exact fun stays => stays.elim
    · exact pop_popped s ch
    · intro p same
      cases same
      exact complete
    · intro p same
      cases same
      change ((s.pop ch).packets (t.ind ch)).timestamp = _ ∧ ((s.pop ch).packets (t.ind ch)).flags = _
      rw [packet]
      exact ⟨rfl, rfl⟩
    · exact fun unused => by cases unused
    · rfl
    · rfl
    · rfl
  · have burst := complete.complete.resolve_left full
    rw [← packet] at full burst
    rw [take, account_short full burst]
    rw [packet] at full
    constructor
    · rfl
    · exact (Bool.or_true _).symm
    · rw [packet]
      exact (if_neg full).symm
    · intro ind other
      exact (Function.update_of_ne other _ _).trans (pop_others s other)
    · intro k
      simp [setPacket, SamplesPacket.clearFrom, packet]
    · exact fun stays => stays.elim
    · exact pop_popped s ch
    · intro p same
      cases same
      exact complete
    · intro p same
      cases same
      simp only [setPacket, Function.update_self, SamplesPacket.clearFrom, packet]
      exact ⟨trivial, trivial⟩
    · exact fun unused => by cases unused
    · rfl
    · rfl
    · rfl

omit [∀ ch, NeZero (B ch)]

theorem visits_snoc (next : s.visits.length = ch) (v : Visit t.maxSamplesBatch) (ch' : Fin 2) :
    (s.visits ++ [v])[ch'.val]? = if ch' = ch then some v else s.visits[ch'.val]? := by
  by_cases here : ch' = ch
  · subst here
    rw [if_pos rfl, List.getElem?_append_right (le_of_eq next), next, Nat.sub_self]
    rfl
  · rw [if_neg here]
    by_cases before : ch'.val < s.visits.length
    · exact List.getElem?_append_left before
    · have apart : ch'.val ≠ ch.val := fun same => here (Fin.ext same)
      have beyond : (s.visits ++ [v]).length ≤ ch'.val := by
        rw [List.length_append, List.length_singleton]
        omega
      rw [List.getElem?_eq_none beyond, List.getElem?_eq_none (by omega)]

structure Seen (s : TransmitLoop t B) : Prop where
  complete : ∀ ch packet, s.round ch = some packet → packet.Complete
  has_samples : s.has_samples = true ↔ ∃ ch, (s.round ch).isSome = true
  payloadSize : s.payloadSize = t.roundPayload s.visits
  size : s.payloadSize ≤ dataSize ∧ t.q ∣ s.payloadSize
  left : ∀ (ch : Fin 2) v, s.visits[ch.val]? = some v → t.Undisturbed s.visits ch →
    v.Left (s.packets (t.ind ch)).samples

theorem Seen.nothing (visits : s.visits = []) (has_samples : s.has_samples = false)
    (payloadSize : s.payloadSize = dataSize) : s.Seen where
  complete ch packet popped := by simp [round, visits] at popped
  has_samples := by simp [round, visits, has_samples]
  payloadSize := by
    rw [payloadSize, visits]
    rfl
  size := by
    rw [payloadSize]
    exact ⟨le_refl _, TxSetup.q_dvd_dataSize⟩
  left ch v found := by simp [visits] at found

theorem Visited.round (visited : s.Visited ch v s') (next : s.visits.length = ch) (ch' : Fin 2) :
    s'.round ch' = if ch' = ch then v.packet else s.round ch' := by
  rw [TransmitLoop.round, visited.visits, visits_snoc next]
  by_cases here : ch' = ch
  · rw [if_pos here, if_pos here]
    rfl
  · rw [if_neg here, if_neg here]
    rfl

theorem round_none (next : s.visits.length = ch) : s.round ch = none := by
  rw [TransmitLoop.round, List.getElem?_eq_none (le_of_eq next)]
  rfl

theorem sizeAfter_spec {size : Nat} (before : size ≤ dataSize ∧ t.q ∣ size)
    (complete : ∀ p, v.packet = some p → p.Complete) :
    t.sizeAfter size v ≤ dataSize ∧ t.q ∣ t.sizeAfter size v := by
  cases v with
  | unused | inactive | timeout => exact before
  | popped p =>
    simp only [TxSetup.sizeAfter]
    by_cases full : p.last = t.maxSamplesBatch
    · rw [if_pos full]
      exact before
    · rw [if_neg full]
      exact (TxSetup.shortPayload_spec (complete p rfl).some (complete p rfl).most).2

theorem Seen.visited (seen : s.Seen) (visited : s.Visited ch v s') (next : s.visits.length = ch) :
    s'.Seen := by
  have round := visited.round next
  constructor
  · intro ch' packet popped
    rw [round] at popped
    by_cases here : ch' = ch
    · rw [if_pos here] at popped
      exact visited.complete packet popped
    · rw [if_neg here] at popped
      exact seen.complete ch' packet popped
  · rw [visited.has_samples, Bool.or_eq_true, seen.has_samples]
    constructor
    · intro found
      cases found with
      | inl before =>
        obtain ⟨ch', popped⟩ := before
        have other : ch' ≠ ch := by
          rintro rfl
          rw [round_none next] at popped
          cases popped
        exact ⟨ch', by rw [round, if_neg other]; exact popped⟩
      | inr now => exact ⟨ch, by rw [round, if_pos rfl]; exact now⟩
    · rintro ⟨ch', popped⟩
      rw [round] at popped
      by_cases here : ch' = ch
      · rw [if_pos here] at popped
        exact .inr popped
      · rw [if_neg here] at popped
        exact .inl ⟨ch', popped⟩
  · rw [visited.payloadSize, visited.visits, seen.payloadSize, TxSetup.roundPayload,
      TxSetup.roundPayload, List.foldl_append]
    rfl
  · rw [visited.payloadSize]
    exact sizeAfter_spec seen.size visited.complete
  · intro ch' w found undisturbed
    have earlier : t.Undisturbed s.visits ch' := by
      intro ch'' u later same there
      apply undisturbed ch'' u later same
      rw [visited.visits]
      exact List.getElem?_append_left (List.getElem?_eq_some_iff.mp there).1 ▸ there
    rw [visited.visits, visits_snoc next] at found
    by_cases here : ch' = ch
    · rw [if_pos here] at found
      cases found
      rw [here]
      exact visited.left
    · rw [if_neg here] at found
      have before := seen.left ch' w found earlier
      by_cases same : t.ind ch = t.ind ch'
      · have later : ch' < ch := by
          have inside := (List.getElem?_eq_some_iff.mp found).1
          rw [next] at inside
          exact inside
        have keeps := undisturbed ch v later same (by rw [visited.visits, visits_snoc next, if_pos rfl])
        rw [← same] at before ⊢
        rw [visited.keeps keeps]
        exact before
      · rw [visited.others _ fun equal => same equal.symm]
        exact before

theorem ind_lt (t : TxSetup) (ch : Fin 2) : (t.ind ch).val < t.chCount := by
  unfold TxSetup.ind TxSetup.chCount
  cases t.mimo with
  | true => exact ch.isLt
  | false => exact Nat.zero_lt_one

theorem offset_le {place : Fin 2} (inside : place.val < t.chCount) {k n : Nat} (below : k < n) :
    t.offset place k + t.width ≤ n * (t.chCount * t.width) := by
  have next : k * t.chCount + place + 1 ≤ n * t.chCount := by
    have rows : (k + 1) * t.chCount ≤ n * t.chCount := Nat.mul_le_mul_right _ below
    rw [Nat.succ_mul] at rows
    omega
  have bytes := Nat.mul_le_mul_right t.width next
  rw [Nat.succ_mul] at bytes
  rw [TxSetup.offset, ← Nat.mul_assoc]
  exact bytes

theorem made_slot (s : TransmitLoop t B) {place : Fin 2} (inside : place.val < t.chCount)
    (k : Fin t.maxSamplesBatch) :
    t.slot s.made place k = t.encode ((s.packets place).samples k) :=
  TxSetup.payload_slot (fun c => (s.packets c).samples) k inside

theorem made_length (s : TransmitLoop t B) : s.made.data.length = dataSize :=
  TxSetup.payload_length fun c => (s.packets c).samples

theorem Seen.made_payloadSize (seen : s.Seen) : s.made.payloadSize = s.payloadSize := by
  apply FPGA_DataPacket.make_payloadSize
  exact lt_of_le_of_lt seen.size.1 (by decide)

theorem payload_part (p : FPGA_DataPacket) {offset width : Nat}
    (inside : offset + width ≤ p.payloadSize) :
    (p.payload.drop offset).take width = (p.data.drop offset).take width := by
  rw [FPGA_DataPacket.payload, List.drop_take, List.take_take, Nat.min_eq_left (by omega)]

theorem round_some {packet : SamplesPacket Complex16 t.maxSamplesBatch}
    (popped : s.round ch = some packet) : s.visits[ch.val]? = some (.popped packet) := by
  obtain ⟨v, found, same⟩ := Option.bind_eq_some_iff.mp popped
  cases v with
  | popped p =>
    cases same
    exact found
  | unused | inactive | timeout => cases same

theorem exists_undisturbed {place : Fin 2}
    (changed : ¬ ∀ (ch : Fin 2) v, t.ind ch = place → s.visits[ch.val]? = some v → v.Keeps) :
    ∃ (ch : Fin 2) (v : _), t.ind ch = place ∧ s.visits[ch.val]? = some v ∧ ¬ v.Keeps ∧
      t.Undisturbed s.visits ch := by
  by_cases last : ∃ v, t.ind 1 = place ∧ s.visits[(1 : Fin 2).val]? = some v ∧ ¬ v.Keeps
  · obtain ⟨v, here, found, changes⟩ := last
    refine ⟨1, v, here, found, changes, ?_⟩
    intro ch' _ later
    exact absurd later (by omega)
  · push Not at changed last
    obtain ⟨ch, v, here, found, changes⟩ := changed
    have first : ch = 0 := by
      by_contra other
      have second : ch = 1 := by omega
      subst second
      exact changes (last v here found)
    subst first
    refine ⟨0, v, here, found, changes, ?_⟩
    intro ch' w later same there
    have second : ch' = 1 := by omega
    subst second
    exact last w (same.trans here) there

theorem Seen.made_conveys (seen : s.Seen) (agreed : s.Agreed uninitialised) :
    t.Conveys uninitialised s.made s.round := by
  constructor
  · intro ch packet popped
    exact (agreed.timestamp ch packet popped).symm
  · intro ch packet popped
    rw [made, FPGA_DataPacket.make_ignoreTimestamp, decide_eq_true_iff]
    exact (agreed.sync ch packet popped).symm
  · intro ch packet popped k below
    have inside : t.offset (t.ind ch) k + t.width ≤ s.made.payloadSize := by
      rw [seen.made_payloadSize, seen.payloadSize]
      exact (offset_le (ind_lt t ch) below).trans (agreed.room ch packet popped)
    have left := seen.left ch _ (round_some popped) (agreed.undisturbed ch packet popped) k
    rw [if_pos below] at left
    rw [payload_part _ inside, ← left]
    exact made_slot s (ind_lt t ch) k
  · intro place inside k beyond
    rw [made_slot s inside]
    by_cases quiet : ∀ (ch : Fin 2) v, t.ind ch = place → s.visits[ch.val]? = some v → v.Keeps
    · cases agreed.silent place inside quiet k with
      | inl zero => exact .inl (congrArg t.encode zero)
      | inr fresh => exact .inr (congrArg t.encode fresh)
    · obtain ⟨ch, v, rfl, found, changes, undisturbed⟩ := exists_undisturbed quiet
      have left := seen.left ch v found undisturbed
      cases v with
      | unused | timeout => exact absurd trivial changes
      | inactive => exact .inl (congrArg t.encode (left k))
      | popped packet =>
        have popped : s.round ch = some packet := by
          rw [round, found]
          rfl
        have past := beyond ch packet popped rfl
        have zero := left k
        rw [if_neg (Nat.not_lt.mpr past)] at zero
        exact .inl (congrArg t.encode zero)

end TransmitLoop

end Soapy.Lime
