import Soapy.Rtl.Stubs

/-! # Queries and replies arrive

A message whose length fits its size field arrives whole in the buffer of the receiver:
the header is the sender's, and the pops find the sender's data.
-/

namespace Soapy.Rtl

open Lib

/-- The message that was sent stands in front of the buffer, and the pops begin behind its
    header. -/
structure Msg.Arrived (msg : Msg) (wire : Bytes) : Prop where
  off : msg.off = fmt_size
  room : wire.length ≤ msg.size
  stands : msg.fmt.load 0 wire.length = wire

structure Whole (wire : Bytes) : Prop where
  header : fmt_size ≤ wire.length
  word : wire.length < 2 ^ 32
  sized : wire.take 4 = toLE 4 wire.length

theorem Msg.realloc_whole (msg : Msg) (size : Nat) (fresh : Memory) :
    ∃ msg', msg.realloc size (some fresh) = some msg' ∧ size ≤ msg'.size ∧ msg'.off = msg.off ∧
      ∀ n ≤ msg.off, msg'.fmt.load 0 n = msg.fmt.load 0 n := by
  unfold Msg.realloc
  split
  · next enough => exact ⟨msg, rfl, enough, rfl, fun _ _ => rfl⟩
  · refine ⟨_, rfl, le_rfl, rfl, ?_⟩
    intro n inside
    have copied := Memory.load_store_front fresh (show n ≤ (msg.fmt.load 0 msg.off).length by
      rwa [Memory.load_length])
    exact copied.trans (Memory.load_take inside)

theorem stands_behind {fmt : Memory} {wire : Bytes} {head : Nat} (long : head ≤ wire.length)
    (front : fmt.load 0 head = wire.take head) :
    (fmt.store head (wire.drop head)).load 0 wire.length = wire := by
  have whole : wire.length = head + (wire.drop head).length := by
    rw [List.length_drop]
    omega
  rw [whole, Memory.load_store_behind, front, List.take_append_drop]

theorem recv_query_arrives {query_msg : Msg} {wire : Bytes} (whole : Whole wire) (fresh : Memory) :
    (recv_query query_msg wire (some fresh)).declared = some wire.length ∧
      (recv_query query_msg wire (some fresh)).msg.Arrived wire := by
  obtain ⟨header, word, sized⟩ := whole
  have long : ¬ wire.length < 4 := by simp only [fmt_size] at header; omega
  have declared : ofLE (wire.take 4) = wire.length := by
    rw [sized]
    exact ofLE_toLE 4 wire.length word
  have size := query_msg.reset.get_size_set_size word
  obtain ⟨msg', grown, room, off, kept⟩ := (query_msg.reset.set_size wire.length).realloc_whole
    wire.length fresh
  have left : (wire.length + 2 ^ 64 - 4) % 2 ^ 64 = wire.length - 4 := by omega
  have rest : (wire.drop 4).take (wire.length - 4) = wire.drop 4 :=
    List.take_of_length_le (by rw [List.length_drop])
  have enough : 0 < wire.length - 4 ∧ wire.length - 4 ≤ (wire.drop 4).length := by
    rw [List.length_drop]
    simp only [fmt_size] at header
    omega
  have front : msg'.fmt.load 0 4 = wire.take 4 := by
    have stored := Memory.load_store_front query_msg.reset.fmt
      (show 4 ≤ (toLE 4 wire.length).length by rw [toLE_length])
    rw [List.take_of_length_le (by rw [toLE_length])] at stored
    rw [sized]
    exact (kept 4 (by decide : 4 ≤ fmt_size)).trans stored
  simp only [recv_query, recv_msg, if_neg long, declared, size, grown, left, if_pos enough, Msg.recv_all,
    rest, true_and]
  exact ⟨off, room, stands_behind (by omega) front⟩

theorem recv_reply_arrives {reply : Msg} (sound : reply.Sound) {id : UInt8} {wire : Bytes}
    (whole : Whole wire) (own : wire[5]? = some id) (fresh : Memory) :
    ∃ r, recv_reply reply id wire fresh = some r ∧ r.Arrived wire := by
  obtain ⟨header, word, sized⟩ := whole
  have front : (reply.recv_all 0 fmt_size wire).fmt.load 0 fmt_size = wire.take fmt_size := by
    have taken : (wire.take fmt_size).length = fmt_size := List.length_take_of_le header
    have stored := Memory.load_store_front reply.fmt (le_of_eq taken.symm)
    rwa [List.take_of_length_le (le_of_eq taken)] at stored
  have named : (reply.recv_all 0 fmt_size wire).get_id = id.toNat := by
    have fifth := congrArg (fun bs : Bytes => bs[5]?) front
    simp only [List.getElem?_take_of_lt (show 5 < fmt_size by decide), own] at fifth
    exact congrArg UInt8.toNat (Option.some.inj fifth)
  have size : (reply.recv_all 0 fmt_size wire).get_size = wire.length := by
    have part := congrArg (List.take 4) front
    rw [Memory.load_take (by decide), List.take_take] at part
    exact (congrArg ofLE (part.trans sized)).trans (ofLE_toLE 4 wire.length word)
  have expected : ¬ (wire.length < fmt_size ∨ (reply.recv_all 0 fmt_size wire).get_id ≠ id.toNat) := by
    rintro (short | other)
    · omega
    · exact other named
  have long : ¬ wire.length < fmt_size := by omega
  obtain ⟨to_m, grown, room, off, kept⟩ := (reply.recv_all 0 fmt_size wire).realloc_whole
    wire.length fresh
  have keptFront := (kept fmt_size sound.body).trans front
  simp only [recv_reply, if_neg expected, recv_body, size, if_neg long, grown]
  split
  · next none =>
      have all : wire.length = fmt_size := by omega
      refine ⟨_, rfl, rfl, room, ?_⟩
      have stands := keptFront
      rw [← all, List.take_length] at stands
      exact stands
  · have rest : (wire.drop fmt_size).take (wire.length - fmt_size) = wire.drop fmt_size :=
      List.take_of_length_le (by rw [List.length_drop])
    have enough : wire.length - fmt_size ≤ (wire.drop fmt_size).length := by rw [List.length_drop]
    simp only [if_pos enough, Option.map_some, Msg.recv_all, rest]
    exact ⟨_, rfl, rfl, room, stands_behind header keptFront⟩

theorem Msg.Arrived.loads {msg m : Msg} (arrived : msg.Arrived m.sent) {offset count : Nat}
    (inside : offset + count ≤ m.off) : msg.fmt.load offset count = m.fmt.load offset count := by
  have stands := arrived.stands
  rw [m.sent_length] at stands
  have part := @Memory.load_part _ _ 0 m.off stands offset count inside
  rwa [Nat.zero_add] at part

theorem Msg.Arrived.byte {msg m : Msg} (arrived : msg.Arrived m.sent) {offset : Nat}
    (inside : offset < m.off) : msg.fmt offset = m.fmt offset := by
  have one := @Msg.Arrived.loads _ _ arrived offset 1 inside
  exact List.singleton_inj.mp one

theorem Msg.Arrived.holds {msg m : Msg} (arrived : msg.Arrived m.sent) {data : Bytes}
    (long : m.off = fmt_size + data.length) (stands : m.fmt.load fmt_size data.length = data) :
    msg.Holds data := by
  obtain ⟨off, room, _⟩ := id arrived
  rw [m.sent_length] at room
  constructor
  · omega
  · rw [off, arrived.loads (le_of_eq long.symm), stands]

theorem Msg.sent_whole {msg : Msg} (header : fmt_size ≤ msg.off) (word : msg.off < 2 ^ 32)
    (sized : msg.fmt.load 0 4 = toLE 4 msg.off) : Whole msg.sent := by
  constructor
  · rwa [msg.sent_length]
  · rwa [msg.sent_length]
  · have inside : 4 ≤ msg.off := le_trans (by decide) header
    rw [msg.sent_length, Msg.sent, Memory.load_take inside, sized]

theorem Msg.sent_get {msg : Msg} {i : Nat} (inside : i < msg.off) : msg.sent[i]? = some (msg.fmt i) := by
  have bound : i < msg.sent.length := by rwa [msg.sent_length]
  rw [List.getElem?_eq_getElem bound]
  simp [Msg.sent, Memory.load_getElem]

/-- A message to which data was pushed behind the header of `start`. -/
structure Msg.Carries (msg start : Msg) (data : Bytes) : Prop where
  off : msg.off = start.off + data.length
  sent : msg.sent = start.sent ++ data

theorem Msg.carries_refl (msg : Msg) : msg.Carries msg [] :=
  ⟨rfl, (List.append_nil _).symm⟩

theorem Msg.Carries.push {msg start : Msg} {data : Bytes} (carries : msg.Carries start data)
    (bs : Bytes) (fresh : Memory) : (msg.push_mem bs fresh).Carries start (data ++ bs) := by
  obtain ⟨off, sent⟩ := carries
  constructor
  · rw [Msg.push_mem_off, off, List.length_append, Nat.add_assoc]
  · rw [Msg.push_mem_sent, sent, List.append_assoc]

theorem Msg.Carries.pushes {msg start : Msg} {data : Bytes} (carries : msg.Carries start data)
    (args : List Bytes) (fresh : Memory) :
    (args.foldl (fun q bs => q.push_mem bs fresh) msg).Carries start (data ++ args.flatten) := by
  induction args generalizing msg data with
  | nil => simpa using carries
  | cons bs args ih => simpa using ih (carries.push bs fresh)

theorem Msg.Carries.front {msg start : Msg} {data : Bytes} (carries : msg.Carries start data)
    {offset count : Nat} (inside : offset + count ≤ start.off) :
    msg.fmt.load offset count = start.fmt.load offset count := by
  obtain ⟨off, sent⟩ := carries
  simp only [Msg.sent, off, Memory.load_add] at sent
  have same := (List.append_inj sent (by simp only [Memory.load_length])).1
  have part := @Memory.load_part _ _ 0 start.off same offset count inside
  rwa [Nat.zero_add] at part

theorem Msg.Carries.data {msg start : Msg} {data : Bytes} (carries : msg.Carries start data) :
    msg.fmt.load start.off data.length = data := by
  obtain ⟨off, sent⟩ := carries
  simp only [Msg.sent, off, Memory.load_add, Nat.zero_add] at sent
  exact (List.append_inj sent (by simp only [Memory.load_length])).2

/-- The query as the handler gets it. -/
structure Asked (b : Buffers) (op : Op) (data : Bytes) (q : Msg) : Prop where
  op : q.get_op = some op
  id : q.fmt 5 = b.id
  holds : q.Holds data

theorem request_header (b : Buffers) (op : Op) (args : List Bytes) :
    (request b op args).fmt 4 = op.code ∧ (request b op args).fmt 5 = b.id := by
  let start := (b.query.reset.set_id b.id).set_op op
  let pushed := args.foldl (fun q bs => q.push_mem bs b.fresh) start
  have built : pushed.Carries start args.flatten := start.carries_refl.pushes args b.fresh
  have kept (i : Nat) (low : 4 ≤ i) (inside : i < fmt_size) : (request b op args).fmt i = start.fmt i := by
    have one := @Msg.load_set_size pushed pushed.off i 1 low
    have front := @Msg.Carries.front _ _ _ built i 1 inside
    exact List.singleton_inj.mp (one.trans front)
  constructor
  · rw [kept 4 (by decide) (by decide), Msg.set_op_byte]
  · rw [kept 5 (by decide) (by decide), Msg.set_op_behind _ _ (by decide), Msg.set_id_byte]

theorem request_off (b : Buffers) (op : Op) (args : List Bytes) :
    (request b op args).off = fmt_size + args.flatten.length :=
  (((b.query.reset.set_id b.id).set_op op).carries_refl.pushes args b.fresh).off

theorem send_recv_msg_eq (l : Link) (op : Op) (args : List Bytes)
    (short : fmt_size + args.flatten.length < 2 ^ 32) :
    ∃ q, Asked l.buffers op args.flatten q ∧
      send_recv_msg l op args =
        let h := handle_op l.buffers.fresh l.behave l.rpcd l.buffers.reply_msg.reset q op
        ⟨h.rpcd, h.calls,
          recv_reply l.buffers.reply l.buffers.id (h.reply q).sent l.buffers.fresh⟩ := by
  let b := l.buffers
  let start := (b.query.reset.set_id b.id).set_op op
  let pushed := args.foldl (fun q bs => q.push_mem bs b.fresh) start
  let wire := (request b op args).sent
  have built : pushed.Carries start args.flatten := start.carries_refl.pushes args b.fresh
  have off := request_off b op args
  have whole : Whole wire := Msg.sent_whole (by omega) (by omega) (pushed.load_set_size_front pushed.off)
  obtain ⟨declared, arrived⟩ := @recv_query_arrives b.query_msg wire whole b.fresh
  let q := (recv_query b.query_msg wire (some b.fresh)).msg
  obtain ⟨code, id⟩ := request_header b op args
  have header (i : Nat) (inside : i < fmt_size) : q.fmt i = (request b op args).fmt i :=
    arrived.byte (by omega)
  have known : q.get_op = some op := by
    rw [Msg.get_op, header 4 (by decide), code, Op.ofCode_code]
  have named : q.fmt 5 = b.id := (header 5 (by decide)).trans id
  have data := @Msg.load_set_size pushed pushed.off fmt_size args.flatten.length (by decide)
  refine ⟨q, ⟨known, named, arrived.holds off (data.trans built.data)⟩, ?_⟩
  have handled : handle_query b.fresh l.behave l.rpcd b.reply_msg q =
      handle_op b.fresh l.behave l.rpcd b.reply_msg.reset q op := by
    simp only [handle_query, known]
  simp only [send_recv_msg]
  split
  · next none =>
      rw [declared] at none
      cases none
  · rw [handled]

theorem Msg.recv_all_first (msg : Msg) (offset : Nat) {size : Nat} {wire : Bytes} {first : UInt8}
    (positive : 0 < size) (starts : wire[0]? = some first) :
    (msg.recv_all offset size wire).fmt offset = first := by
  cases wire with
  | nil => cases starts
  | cons byte wire =>
    cases size with
    | zero => cases positive
    | succ size =>
      rw [← Option.some.inj starts]
      exact @Memory.store_inside msg.fmt offset 0 (byte :: wire.take size) (Nat.succ_pos _)

theorem recv_query_op {query_msg : Msg} {wire : Bytes} {malloc : Option Memory} {declared : Nat}
    (accepted : (recv_query query_msg wire malloc).declared = some declared) {code : UInt8}
    (sent : wire[4]? = some code) :
    (recv_query query_msg wire malloc).msg.off = fmt_size ∧
      (recv_query query_msg wire malloc).msg.fmt 4 = code := by
  unfold recv_query recv_msg at accepted ⊢
  split at accepted
  · cases accepted
  · next long =>
      rw [if_neg long]
      simp only at accepted ⊢
      split at accepted
      · cases accepted
      · next m' grown =>
          split at accepted
          · next enough =>
              have starts : (wire.drop 4)[0]? = some code := by rw [List.getElem?_drop, sent]
              exact ⟨(Msg.realloc_some grown).2, m'.recv_all_first 4 enough.1 starts⟩
          · cases accepted

theorem Handled.reply_front (h : Handled) (q : Msg) :
    (h.reply q).fmt.load 0 4 = toLE 4 (h.reply q).off := by
  have fmt : (h.reply q).fmt =
      (((h.r.fmt.store 0 (toLE 4 h.r.off)).store 4 [q.fmt 4]).store 5 [q.fmt 5, 0]).store 6
        (u32 h.err.toUInt32) := rfl
  rw [fmt, Memory.load_store_disjoint (Or.inl (by decide)),
    Memory.load_store_disjoint (Or.inl (by decide)), Memory.load_store_disjoint (Or.inl (by decide))]
  exact h.r.load_set_size_front h.r.off

theorem recv_reply_eq (b : Buffers) {q : Msg} (id : q.fmt 5 = b.id) (h : Handled) {data : Bytes}
    (carries : h.r.Carries b.reply_msg.reset data) (short : fmt_size + data.length < 2 ^ 32) :
    ∃ r, recv_reply b.reply b.id (h.reply q).sent b.fresh = some r ∧ r.get_err = h.err ∧
      r.Holds data := by
  have off : (h.reply q).off = fmt_size + data.length := carries.off
  let sized := h.r.fmt.store 0 (toLE 4 h.r.off)
  let named := (sized.store 4 [q.fmt 4]).store 5 [q.fmt 5, 0]
  have fmt : (h.reply q).fmt = named.store 6 (u32 h.err.toUInt32) := rfl
  have errLength : (u32 h.err.toUInt32).length = 4 := u32_length _
  have word : (h.reply q).fmt.load 6 4 = u32 h.err.toUInt32 := by
    have stored := Memory.load_store named 6 0 4 (u32 h.err.toUInt32) (by omega)
    rw [List.drop_zero, List.take_of_length_le (le_of_eq errLength)] at stored
    exact stored
  have idByte : (h.reply q).fmt 5 = b.id := by
    rw [fmt, Memory.store_outside (Or.inl (by decide)), ← id]
    exact @Memory.store_inside _ 5 0 [q.fmt 5, 0] Nat.two_pos
  have behind : (h.reply q).fmt.load fmt_size data.length = data := by
    have front : 4 ≤ fmt_size := by decide
    rw [fmt, Memory.load_store_disjoint (Or.inr (by rw [errLength]; decide)),
      Memory.load_store_disjoint (Or.inr (show 5 + 2 ≤ fmt_size by decide)),
      Memory.load_store_disjoint (Or.inr (show 4 + 1 ≤ fmt_size by decide))]
    exact (h.r.load_set_size h.r.off front).trans carries.data
  have whole := Msg.sent_whole (by omega) (by omega) (h.reply_front q)
  have own : (h.reply q).sent[5]? = some b.id := by
    have inside : 5 < (h.reply q).off := by
      rw [off]
      exact Nat.lt_add_right _ (by decide)
    rw [Msg.sent_get inside, idByte]
  obtain ⟨r, received, arrived⟩ := recv_reply_arrives b.reply_sound whole own b.fresh
  refine ⟨r, received, ?_, arrived.holds off behind⟩
  have bits : h.err.toUInt32.toNat < 256 ^ 4 := h.err.toUInt32.toNat_lt
  have value : ofLE (u32 h.err.toUInt32) = h.err.toUInt32.toNat := ofLE_toLE 4 _ bits
  rw [Msg.get_err, arrived.loads (show 6 + 4 ≤ _ by rw [off]; exact Nat.le_add_right ..), word, value,
    UInt32.ofNat_toNat]
  rfl

end Soapy.Rtl
