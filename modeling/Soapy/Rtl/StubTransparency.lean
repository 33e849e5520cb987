import Soapy.Rtl.Delivery

/-! # Remote calls of librtlsdr against local ones

A stub is transparent when the server makes exactly the call that the stub was given, on
the device of the same index, and the stub answers what that call answered.
-/

namespace Soapy.Rtl

open Lib

structure Transparent (l : Link) (dev : Dev) (c : Call) : Prop where
  calls : (c.stub l dev).calls = [⟨if c.OnDevice then some dev.index else none, c⟩]
  result : (c.stub l dev).result = some (c.result (l.behave c))

/-- The device of the handle is the one the server has open. -/
def Opened (rpcd : Rpcd) (dev : Dev) : Prop := rpcd.dev = true ∧ rpcd.did = dev.index

/-- What is stored goes back on success only. -/
def StringsAnswer.OnSuccess (a : StringsAnswer) : Prop :=
  a.ret = 0 ∨ a.manufact = none ∧ a.product = none ∧ a.serial = none

def XtalAnswer.OnSuccess (a : XtalAnswer) : Prop :=
  a.ret = 0 ∨ a.rtl_freq = none ∧ a.tuner_freq = none

def ReadAnswer.OnSuccess {len : Int32} (a : ReadAnswer len) : Prop :=
  a.ret = 0 ∨ a.data = [] ∧ a.n_read = false

def BandwidthAnswer.Failed (a : BandwidthAnswer) : Prop := a.ret = -1 ∧ a.applied_bw = none

def GainsAnswer.Expected (a : GainsAnswer) (gain_count : Nat) : Prop :=
  0 < a.ret → gain_count * 4 % 2 ^ 32 = a.gains.length * 4 ∧
    fmt_size + (4 + a.gains.length * 4) < 2 ^ 32

def FitsMessage (s : Text) : Prop := fmt_size + (s.val.length + 1) < 2 ^ 32

def Call.Meets (rpcd : Rpcd) (behave : Behaviour) (env : Option UInt32) (dev : Dev) : Call → Prop
  | .get_device_count => True
  | .get_device_name index => ∃ s : Text, behave (.get_device_name index) = some s ∧ FitsMessage s
  | .get_device_usb_strings index manufact product serial =>
    (manufact = true ∧ product = true ∧ serial = true) ∧
      StringsAnswer.OnSuccess (behave (.get_device_usb_strings index true true true))
  | .get_index_by_serial serial => ∃ s, serial = some s ∧ FitsMessage s
  | .open index => rpcd.dev = false ∧ env = some index
  | .get_xtal_freq rtl_freq tuner_freq =>
    Opened rpcd dev ∧ (rtl_freq = true ∧ tuner_freq = true) ∧
      XtalAnswer.OnSuccess (behave (.get_xtal_freq true true))
  | .get_usb_strings manufact product serial =>
    Opened rpcd dev ∧ (manufact = true ∧ product = true ∧ serial = true) ∧
      StringsAnswer.OnSuccess (behave (.get_usb_strings true true true))
  | .get_tuner_gains gains =>
    Opened rpcd dev ∧
      (gains = true → GainsAnswer.Expected (behave (.get_tuner_gains true)) dev.gain_count)
  | .set_and_get_tuner_bandwidth bw apply_bw =>
    Opened rpcd dev ∧ BandwidthAnswer.Failed (behave (.set_and_get_tuner_bandwidth bw apply_bw))
  | .read_sync len => Opened rpcd dev ∧ ReadAnswer.OnSuccess (behave (.read_sync len))
  | .close | .set_xtal_freq .. | .set_center_freq _ | .get_center_freq | .set_freq_correction _
  | .get_freq_correction | .get_tuner_type | .set_tuner_gain _ | .get_tuner_gain
  | .set_tuner_if_gain .. | .set_tuner_gain_mode _ | .set_sample_rate _ | .get_sample_rate
  | .set_testmode _ | .set_agc_mode _ | .set_direct_sampling _ | .get_direct_sampling
  | .set_offset_tuning _ | .get_offset_tuning | .reset_buffer => Opened rpcd dev

section

variable {rpcd : Rpcd} {r q : Msg} {α : Type} {pop : Pop α} {bs : Bytes} {a : α}

theorem withArgs_eq (reads : pop.Reads bs a) (holds : q.Holds bs) (serve : α → Handled) :
    withArgs rpcd r q pop serve = serve a := by
  obtain ⟨_, popped, _⟩ := reads q [] (by rwa [List.append_nil])
  simp only [withArgs, popped]

theorem withDevice_eq {index : UInt32} (reads : pop.Reads bs a) (holds : q.Holds (u32 index ++ bs))
    (serve : α → Handled) :
    withDevice rpcd r q pop serve =
      if rpcd.dev = false ∨ rpcd.did ≠ index then gaveUp rpcd r else serve a := by
  have tail : Pop.Reads (do let a ← pop; pure (index, a)) (bs ++ []) (index, a) :=
    Pop.reads_bind reads (Pop.reads_pure (index, a))
  have both : Pop.Reads (do let did ← Pop.uint32; let a ← pop; pure (did, a))
      (u32 index ++ (bs ++ [])) (index, a) := Pop.reads_bind (Pop.reads_uint32 index) tail
  rw [List.append_nil] at both
  exact withArgs_eq both holds _

end

theorem not_opened {rpcd : Rpcd} {dev : Dev} (closed : ¬ Opened rpcd dev) :
    rpcd.dev = false ∨ rpcd.did ≠ dev.index := by
  cases known : rpcd.dev with
  | false => exact Or.inl rfl
  | true => exact Or.inr fun same => closed ⟨known, same⟩

variable {α : Type} {pop : Pop α} {a : α} (op : Op) (args : List Bytes) (serve : Msg → α → Handled)

theorem device_exchange (l : Link) (dev : Dev) (op : Op) (args : List Bytes) (serve : Msg → α → Handled) (reads : pop.Reads args.flatten a)
    (few : args.flatten.length ≤ 8)
    (handles : ∀ r q, handle_op l.buffers.fresh l.behave l.rpcd r q op =
      withDevice l.rpcd r q pop (serve r)) :
    (¬ Opened l.rpcd dev ∧ (send_recv_msg l op (u32 dev.index :: args)).calls = []) ∨
      (Opened l.rpcd dev ∧ ∃ q, q.fmt 5 = l.buffers.id ∧
        send_recv_msg l op (u32 dev.index :: args) =
          let h := serve l.buffers.reply_msg.reset a
          ⟨h.rpcd, h.calls,
            recv_reply l.buffers.reply l.buffers.id (h.reply q).sent l.buffers.fresh⟩) := by
  have short : fmt_size + (u32 dev.index :: args).flatten.length < 2 ^ 32 := by
    simp only [List.flatten_cons, List.length_append, u32_length, fmt_size]
    omega
  obtain ⟨q, asked, exchanged⟩ := send_recv_msg_eq l op (u32 dev.index :: args) short
  have holds : q.Holds (u32 dev.index ++ args.flatten) := asked.holds
  simp only [handles, withDevice_eq reads holds] at exchanged
  by_cases opened : Opened l.rpcd dev
  · have there : ¬ (l.rpcd.dev = false ∨ l.rpcd.did ≠ dev.index) := by
      rintro (absent | other)
      · rw [opened.1] at absent
        cases absent
      · exact other opened.2
    rw [if_neg there] at exchanged
    exact Or.inr ⟨opened, q, asked.id, exchanged⟩
  · rw [if_pos (not_opened opened)] at exchanged
    exact Or.inl ⟨opened, congrArg Exchange.calls exchanged⟩

variable {q : Msg} (b : Buffers) (rpcd : Rpcd) (err : Int32) (calls : List Made)

theorem told_reply (id : q.fmt 5 = b.id) (rpcd : Rpcd) (calls : List Made) (err : Int32) :
    ∃ r, recv_reply b.reply b.id ((told rpcd b.reply_msg.reset calls err).reply q).sent b.fresh = some r ∧
      r.get_err = err := by
  obtain ⟨r, received, same, _⟩ := recv_reply_eq b id (told rpcd b.reply_msg.reset calls err)
    b.reply_msg.reset.carries_refl (by decide)
  exact ⟨r, received, same⟩

theorem errStub_transparent (l : Link) (dev : Dev) {op : Op} {args : List Bytes} (call : α → Call) (err : α → Int32) (rpcd' : Rpcd) (reads : pop.Reads args.flatten a)
    (few : args.flatten.length ≤ 8)
    (handles : ∀ r q, handle_op l.buffers.fresh l.behave l.rpcd r q op =
      withDevice l.rpcd r q pop (fun a => ⟨rpcd', onDevice l.rpcd (call a), err a, r⟩)) :
    ((errStub l dev op args).calls = [⟨some dev.index, call a⟩] ∧
      (errStub l dev op args).result = some ⟨.int (err a), []⟩) ↔ Opened l.rpcd dev := by
  have cases := device_exchange l dev op args
    (fun r a => ⟨rpcd', onDevice l.rpcd (call a), err a, r⟩) reads few handles
  unfold errStub
  simp only
  rcases cases with ⟨closed, none⟩ | ⟨opened, q, id, exchanged⟩
  · rw [none]
    constructor
    · rintro ⟨made, _⟩
      cases made
    · exact fun opened => absurd opened closed
  · rw [exchanged]
    obtain ⟨r, received, same⟩ := told_reply l.buffers id rpcd' (onDevice l.rpcd (call a)) (err a)
    constructor
    · exact fun _ => opened
    · intro _
      constructor
      · exact congrArg (fun did => [Made.mk (some did) (call a)]) opened.2
      · change some (Result.mk (.int ((recv_reply l.buffers.reply l.buffers.id
          ((told rpcd' l.buffers.reply_msg.reset (onDevice l.rpcd (call a)) (err a)).reply q).sent
          l.buffers.fresh).elim (-1) Msg.get_err)) []) = _
        rw [received, Option.elim_some, same]

theorem transparent_of_err {l : Link} {dev : Dev} {c : Call} {run : Run} {err : Int32}
    (calls : (c.stub l dev).calls = run.calls) (answered : (c.stub l dev).result = run.result)
    (onDevice : c.OnDevice = true) (result : c.result (l.behave c) = ⟨.int err, []⟩)
    (agrees : (run.calls = [⟨some dev.index, c⟩] ∧ run.result = some ⟨.int err, []⟩) ↔
      Opened l.rpcd dev) :
    Transparent l dev c ↔ Opened l.rpcd dev := by
  rw [← agrees]
  constructor
  · rintro ⟨made, returned⟩
    rw [calls, onDevice] at made
    rw [answered, result] at returned
    exact ⟨made, returned⟩
  · rintro ⟨made, returned⟩
    constructor
    · rw [calls, onDevice]
      exact made
    · rw [answered, result]
      exact returned

section

variable {l : Link} {dev : Dev} {c : Call} {op : Op}

theorem plain_transparent (rpcd' : Rpcd) (err : Int32)
    (onDevice : c.OnDevice = true := by rfl) (result : c.result (l.behave c) = ⟨.int err, []⟩ := by rfl)
    (calls : (c.stub l dev).calls = (errStub l dev op []).calls := by rfl)
    (answered : (c.stub l dev).result = (errStub l dev op []).result := by rfl)
    (handles : ∀ r q, handle_op l.buffers.fresh l.behave l.rpcd r q op =
      withDevice l.rpcd r q (pure ()) (fun _ => ⟨rpcd', Rtl.onDevice l.rpcd c, err, r⟩) := by intros; rfl) :
    Transparent l dev c ↔ Opened l.rpcd dev :=
  transparent_of_err calls answered onDevice result
    (errStub_transparent l dev (fun _ : Unit => c) (fun _ => err) rpcd' (Pop.reads_pure ())
      (by decide) handles)

theorem one_transparent {w : UInt32} (call : α → Call) (err : α → Int32)
    (reads : pop.Reads (u32 w) a) (onDevice : (call a).OnDevice = true := by rfl)
    (result : (call a).result (l.behave (call a)) = ⟨.int (err a), []⟩ := by rfl)
    (stub : (call a).stub l dev = errStub l dev op [u32 w] := by rfl)
    (handles : ∀ r q, handle_op l.buffers.fresh l.behave l.rpcd r q op =
      withDevice l.rpcd r q pop
        (fun a => told l.rpcd r (Rtl.onDevice l.rpcd (call a)) (err a)) := by intros; rfl) :
    Transparent l dev (call a) ↔ Opened l.rpcd dev := by
  have reads : pop.Reads [u32 w].flatten a := by rwa [List.flatten_singleton]
  have few : [u32 w].flatten.length ≤ 8 := by
    rw [List.flatten_singleton, u32_length]
    decide
  exact transparent_of_err (congrArg Run.calls stub) (congrArg Run.result stub) onDevice result
    (errStub_transparent l dev call err l.rpcd reads few handles)

theorem reads_two {β : Type} {next : Pop β} {bs more : Bytes} {b : β}
    (first : pop.Reads bs a) (second : next.Reads more b) :
    Pop.Reads (do let a ← pop; let b ← next; pure (a, b)) [bs, more].flatten (a, b) := by
  have tail : Pop.Reads (do let b ← next; pure (a, b)) (more ++ []) (a, b) :=
    Pop.reads_bind second (Pop.reads_pure (a, b))
  exact Pop.reads_bind first tail

theorem two_transparent {bs more : Bytes} {b : α} (call : α × α → Call)
    (err : α × α → Int32) (first : pop.Reads bs a) (second : pop.Reads more b)
    (few : [bs, more].flatten.length ≤ 8) (onDevice : (call (a, b)).OnDevice = true := by rfl)
    (result : (call (a, b)).result (l.behave (call (a, b))) = ⟨.int (err (a, b)), []⟩ := by rfl)
    (stub : (call (a, b)).stub l dev = errStub l dev op [bs, more] := by rfl)
    (handles : ∀ r q, handle_op l.buffers.fresh l.behave l.rpcd r q op =
      withDevice l.rpcd r q (do let a ← pop; let b ← pop; pure (a, b))
        (fun p => told l.rpcd r (Rtl.onDevice l.rpcd (call p)) (err p)) := by intros; rfl) :
    Transparent l dev (call (a, b)) ↔ Opened l.rpcd dev :=
  transparent_of_err (congrArg Run.calls stub) (congrArg Run.result stub) onDevice result
    (errStub_transparent l dev call err l.rpcd (reads_two first second) few handles)

end

variable (x : UInt32)

theorem words_length (y : UInt32) : [u32 x, u32 y].flatten.length ≤ 8 := by
  simp

theorem args_exchange (l : Link) (op : Op) (args : List Bytes)
    (serve : Msg → α → Handled) (reads : pop.Reads args.flatten a)
    (short : fmt_size + args.flatten.length < 2 ^ 32)
    (handles : ∀ r q, handle_op l.buffers.fresh l.behave l.rpcd r q op =
      withArgs l.rpcd r q pop (serve r)) :
    ∃ q, q.fmt 5 = l.buffers.id ∧ send_recv_msg l op args =
      let h := serve l.buffers.reply_msg.reset a
      ⟨h.rpcd, h.calls, recv_reply l.buffers.reply l.buffers.id (h.reply q).sent l.buffers.fresh⟩ := by
  obtain ⟨q, asked, exchanged⟩ := send_recv_msg_eq l op args short
  simp only [handles, withArgs_eq reads asked.holds] at exchanged
  exact ⟨q, asked.id, exchanged⟩

theorem Pop.Reads.pops {bs : Bytes} (reads : pop.Reads bs a) {msg : Msg}
    (holds : msg.Holds bs) : ∃ msg', pop msg = some (a, msg') := by
  obtain ⟨msg', popped, _⟩ := reads msg [] (by rwa [List.append_nil])
  exact ⟨msg', popped⟩

theorem index_short : fmt_size + [u32 x].flatten.length < 2 ^ 32 := by
  rw [List.flatten_singleton, u32_length]
  decide

theorem reads_index : Pop.uint32.Reads [u32 x].flatten x := by
  rw [List.flatten_singleton]
  exact Pop.reads_uint32 x

theorem get_device_count_transparent (l : Link) (dev : Dev) : Transparent l dev .get_device_count := by
  let n : UInt32 := l.behave .get_device_count
  have reads : Pop.Reads (pure ()) ([] : List Bytes).flatten () := Pop.reads_pure ()
  obtain ⟨q, asked, exchanged⟩ := send_recv_msg_eq l .get_device_count [] (by decide)
  have carries := l.buffers.reply_msg.reset.carries_refl.push (u32 n) l.buffers.fresh
  rw [List.nil_append] at carries
  obtain ⟨r, received, _, holds⟩ := recv_reply_eq l.buffers asked.id
    ⟨l.rpcd, offDevice .get_device_count, 0, l.buffers.reply_msg.reset.push_uint32 n l.buffers.fresh⟩
    carries (by rw [u32_length]; decide)
  obtain ⟨_, popped⟩ := (Pop.reads_uint32 n).pops holds
  constructor
  · simp only [Call.stub, rtlsdr_rpc_get_device_count, exchanged, handle_op]
    rfl
  · simp only [Call.stub, rtlsdr_rpc_get_device_count, exchanged, handle_op]
    rw [received, Option.elim_some, popped]
    rfl

variable {r : Msg}

theorem recv_reply_sound {b : Buffers} {wire : Bytes}
    (received : recv_reply b.reply b.id wire b.fresh = some r) : r.off = fmt_size ∧ r.size < 2 ^ 32 := by
  have own := b.reply_sound
  unfold recv_reply at received
  simp only at received
  split at received
  · cases received
  · have start : (b.reply.recv_all 0 fmt_size wire).Sound := ⟨own.header, own.word, own.body, own.off⟩
    have body := recv_body_sound start (wire.drop fmt_size) (some b.fresh)
    obtain ⟨_, _, same⟩ := Option.map_eq_some_iff.mp received
    cases same
    exact ⟨rfl, body.word⟩

theorem popped_fits {r' : Msg} {s : Bytes} (off : r.off = fmt_size) (word : r.size < 2 ^ 32)
    (popped : Pop.str r = some (s, r')) : fmt_size + (s.length + 1) < 2 ^ 32 := by
  obtain ⟨n, found, same⟩ := Option.map_eq_some_iff.mp popped
  have inside := List.mem_range.mp (List.find?_range_eq_some.mp found).2.1
  have length : s.length = n := by
    cases same
    exact Memory.load_length ..
  omega

/-- What the stub returns of the reply. -/
def named : Option Msg → Option Result
  | none => some ⟨.text none, []⟩
  | some r => (Pop.str r).map (fun (s, _) => ⟨.text (some s), []⟩)

theorem get_device_name_transparent (l : Link) (dev : Dev) (index : UInt32) :
    Transparent l dev (.get_device_name index) ↔
      ∃ s : Text, l.behave (.get_device_name index) = some s ∧ FitsMessage s := by
  let name : Option Text := l.behave (.get_device_name index)
  let text : Bytes := name.elim [] Subtype.val
  have noZero : 0 ∉ text := by
    cases known : name with
    | none => simp [text, known]
    | some s => simpa [text, known] using s.property
  obtain ⟨q, id, exchanged⟩ := args_exchange l .get_device_name [u32 index]
    (fun r i => ⟨l.rpcd, offDevice (.get_device_name i), 0,
      r.push_str ((l.behave (.get_device_name i) : Option Text).elim [] Subtype.val) l.buffers.fresh⟩)
    (reads_index index) (index_short index) (fun _ _ => rfl)
  let h : Handled := ⟨l.rpcd, offDevice (.get_device_name index), 0,
    l.buffers.reply_msg.reset.push_str text l.buffers.fresh⟩
  let reply := recv_reply l.buffers.reply l.buffers.id (h.reply q).sent l.buffers.fresh
  have stub : (Call.get_device_name index).stub l dev = ⟨l.rpcd, offDevice (.get_device_name index), none,
      named reply⟩ := by
    simp only [Call.stub, rtlsdr_rpc_get_device_name, exchanged]
    rfl
  have arrives (fits : fmt_size + (text.length + 1) < 2 ^ 32) :
      ∃ r r', reply = some r ∧ Pop.str r = some (text, r') := by
    have carries := l.buffers.reply_msg.reset.carries_refl.push (text ++ [0]) l.buffers.fresh
    rw [List.nil_append] at carries
    obtain ⟨r, received, _, holds⟩ := recv_reply_eq l.buffers id h carries
      (by rwa [List.length_append, List.length_singleton])
    obtain ⟨r', popped⟩ := (Pop.reads_str noZero).pops holds
    exact ⟨r, r', received, popped⟩
  constructor
  · rintro ⟨_, answered⟩
    rw [stub] at answered
    change _ = some (Result.mk (.text (name.map Subtype.val)) []) at answered
    cases known : name with
    | none =>
      have empty : text = [] := by simp [text, known]
      obtain ⟨r, r', received, popped⟩ := arrives (by rw [empty]; decide)
      simp [named, received, popped, known] at answered
    | some s =>
      have same : text = s.val := by simp [text, known]
      refine ⟨s, known, ?_⟩
      cases received : reply with
      | none => simp [named, received, known] at answered
      | some r =>
        simp only [named, received, known, Option.map_some] at answered
        obtain ⟨⟨s', r'⟩, popped, equal⟩ := Option.map_eq_some_iff.mp answered
        cases equal
        obtain ⟨off, word⟩ := recv_reply_sound received
        exact popped_fits off word popped
  · rintro ⟨s, known, fits⟩
    have same : text = s.val := by simp [text, name, known]
    obtain ⟨r, r', received, popped⟩ := arrives (by rw [same]; exact fits)
    constructor
    · rw [stub]
      rfl
    · rw [stub]
      simp [named, received, popped, Call.result, known, same]

theorem copyStrings_eq {manufact product serial : ShortText}
    (holds : r.Holds (strBytes manufact.val ++ strBytes product.val ++ strBytes serial.val)) :
    copyStrings [true, true, true] r =
      some [strBytes manufact.val, strBytes product.val, strBytes serial.val] := by
  rw [List.append_assoc] at holds
  obtain ⟨r₁, first, holds₁⟩ := Pop.reads_str manufact.property.1 r _ holds
  obtain ⟨r₂, second, holds₂⟩ := Pop.reads_str product.property.1 r₁ _ holds₁
  obtain ⟨r₃, third⟩ := (Pop.reads_str serial.property.1).pops holds₂
  simp [copyStrings, first, second, third]

theorem strings_result (l : Link) (id : q.fmt 5 = l.buffers.id) (calls : List Made)
    (a : StringsAnswer) (dev : Option Dev) (op : Op) (index : UInt32)
    (replied : (send_recv_msg l op [u32 index]).reply =
      recv_reply l.buffers.reply l.buffers.id
        ((toldStrings l.buffers.fresh l.rpcd l.buffers.reply_msg.reset calls a).reply q).sent
        l.buffers.fresh) :
    (stringsStub l dev op index true true true).result = some (stringsResult a true true true) ↔
      a.OnSuccess := by
  obtain ⟨ret, manufact, product, serial, told⟩ := a
  by_cases failed : ret ≠ 0
  · have handled : toldStrings l.buffers.fresh l.rpcd l.buffers.reply_msg.reset calls
        ⟨ret, manufact, product, serial, told⟩ = ⟨l.rpcd, calls, ret, l.buffers.reply_msg.reset⟩ := by
      rw [toldStrings, if_pos failed]
    rw [handled] at replied
    obtain ⟨r, received, err⟩ := told_reply l.buffers id l.rpcd calls ret
    have arrived := replied.trans received
    simp only [stringsStub, arrived, err, if_pos failed]
    cases manufact <;> cases product <;> cases serial <;>
      simp [StringsAnswer.OnSuccess, stringsResult, stored, strBytes, failed]
  · have success : ret = 0 := by simpa using failed
    subst success
    obtain ⟨someManufact, someProduct, someSerial⟩ := told rfl
    obtain ⟨manufact, rfl⟩ := Option.isSome_iff_exists.mp someManufact
    obtain ⟨product, rfl⟩ := Option.isSome_iff_exists.mp someProduct
    obtain ⟨serial, rfl⟩ := Option.isSome_iff_exists.mp someSerial
    have carries := ((l.buffers.reply_msg.reset.carries_refl.push (strBytes manufact.val)
      l.buffers.fresh).push (strBytes product.val) l.buffers.fresh).push (strBytes serial.val)
      l.buffers.fresh
    rw [List.nil_append] at carries
    have few : fmt_size + (strBytes manufact.val ++ strBytes product.val ++ strBytes serial.val).length
        < 2 ^ 32 := by
      have m := manufact.property.2
      have p := product.property.2
      have s := serial.property.2
      simp only [strBytes, List.length_append, List.length_singleton, fmt_size]
      omega
    obtain ⟨r, received, err, holds⟩ := recv_reply_eq l.buffers id
      (toldStrings l.buffers.fresh l.rpcd l.buffers.reply_msg.reset calls
        ⟨0, some manufact, some product, some serial, told⟩) carries few
    have arrived := replied.trans received
    have good : ¬ r.get_err ≠ 0 := by
      rw [err]
      exact failed
    simp only [stringsStub, arrived, if_neg good, copyStrings_eq holds]
    simp [StringsAnswer.OnSuccess, stringsResult, stored]

theorem get_device_usb_strings_transparent (l : Link) (dev : Dev) (index : UInt32)
    (manufact product serial : Bool) :
    Transparent l dev (.get_device_usb_strings index manufact product serial) ↔
      (manufact = true ∧ product = true ∧ serial = true) ∧
        StringsAnswer.OnSuccess (l.behave (.get_device_usb_strings index true true true)) := by
  obtain ⟨q, id, exchanged⟩ := args_exchange l .get_device_usb_strings [u32 index]
    (fun r i => toldStrings l.buffers.fresh l.rpcd r (offDevice (.get_device_usb_strings i true true true))
      (l.behave (.get_device_usb_strings i true true true)))
    (reads_index index) (index_short index) (fun _ _ => rfl)
  have result := strings_result l id _ _ none _ _ (congrArg Exchange.reply exchanged)
  have made : ((Call.get_device_usb_strings index manufact product serial).stub l dev).calls =
      [⟨none, .get_device_usb_strings index true true true⟩] := by
    simp only [Call.stub, rtlsdr_rpc_get_device_usb_strings, stringsStub, exchanged]
    rfl
  constructor
  · rintro ⟨calls, answered⟩
    rw [made] at calls
    cases calls
    exact ⟨⟨rfl, rfl, rfl⟩, result.mp answered⟩
  · rintro ⟨⟨rfl, rfl, rfl⟩, success⟩
    exact ⟨made, result.mpr success⟩

theorem device_transparent (l : Link) (dev : Dev) (c c' : Call) (Answered : Prop) (op : Op) (args : List Bytes) (serve : Msg → α → Handled) (reads : pop.Reads args.flatten a)
    (few : args.flatten.length ≤ 8)
    (handles : ∀ r q, handle_op l.buffers.fresh l.behave l.rpcd r q op =
      withDevice l.rpcd r q pop (serve r))
    (device : c.OnDevice = true)
    (calls : (c.stub l dev).calls = (send_recv_msg l op (u32 dev.index :: args)).calls)
    (made : (serve l.buffers.reply_msg.reset a).calls = onDevice l.rpcd c')
    (result : c' = c → ∀ q, q.fmt 5 = l.buffers.id →
      (send_recv_msg l op (u32 dev.index :: args)).reply =
        recv_reply l.buffers.reply l.buffers.id
          ((serve l.buffers.reply_msg.reset a).reply q).sent l.buffers.fresh →
      ((c.stub l dev).result = some (c.result (l.behave c)) ↔ Answered)) :
    Transparent l dev c ↔ Opened l.rpcd dev ∧ c' = c ∧ Answered := by
  rcases device_exchange l dev op args serve reads few handles with
    ⟨closed, none⟩ | ⟨opened, q, id, exchanged⟩
  · constructor
    · rintro ⟨expected, _⟩
      rw [calls, none] at expected
      cases expected
    · exact fun all => absurd all.1 closed
  · have there : (c.stub l dev).calls = [⟨some dev.index, c'⟩] := by
      rw [calls, exchanged, ← opened.2]
      exact made
    have answered (same : c' = c) := result same q id (congrArg Exchange.reply exchanged)
    constructor
    · rintro ⟨expected, returned⟩
      rw [there] at expected
      have same : c' = c := congrArg Made.call (List.singleton_inj.mp expected)
      exact ⟨opened, same, (answered same).mp returned⟩
    · rintro ⟨_, same, holds⟩
      constructor
      · rw [there, device, same]
        rfl
      · exact (answered same).mpr holds

theorem get_usb_strings_transparent (l : Link) (dev : Dev) (manufact product serial : Bool) :
    Transparent l dev (.get_usb_strings manufact product serial) ↔
      Opened l.rpcd dev ∧ (manufact = true ∧ product = true ∧ serial = true) ∧
        StringsAnswer.OnSuccess (l.behave (.get_usb_strings true true true)) := by
  have agrees := device_transparent l dev (.get_usb_strings manufact product serial)
    (.get_usb_strings true true true)
    (StringsAnswer.OnSuccess (l.behave (.get_usb_strings true true true))) .get_usb_strings []
    (fun r _ => toldStrings l.buffers.fresh l.rpcd r
      (onDevice l.rpcd (.get_usb_strings true true true)) (l.behave (.get_usb_strings true true true)))
    (Pop.reads_pure ()) (by decide) (fun _ _ => rfl) rfl
    (by simp only [Call.stub, rtlsdr_rpc_get_usb_strings, stringsStub]) rfl (by
      intro same q id replied
      cases same
      exact strings_result l id _ _ (some dev) _ _ replied)
  simpa [eq_comm] using agrees

theorem u32_ne_nil : u32 x ≠ [] :=
  List.ne_nil_of_length_eq_add_one (u32_length x)

theorem stored_nil {value : Option UInt32} : stored true u32 value = [] ↔ value = none := by
  cases value <;> simp [stored, u32_ne_nil]

theorem u32_short : fmt_size + (u32 x).length < 2 ^ 32 := by
  rw [u32_length]
  decide

theorem get_xtal_freq_transparent (l : Link) (dev : Dev) (rtl_freq tuner_freq : Bool) :
    Transparent l dev (.get_xtal_freq rtl_freq tuner_freq) ↔
      Opened l.rpcd dev ∧ (rtl_freq = true ∧ tuner_freq = true) ∧
        XtalAnswer.OnSuccess (l.behave (.get_xtal_freq true true)) := by
  have agrees := device_transparent l dev (.get_xtal_freq rtl_freq tuner_freq)
    (.get_xtal_freq true true)
    (XtalAnswer.OnSuccess (l.behave (.get_xtal_freq true true))) .get_xtal_freq []
    (fun r _ =>
      let a : XtalAnswer := l.behave (.get_xtal_freq true true)
      ⟨l.rpcd, onDevice l.rpcd (.get_xtal_freq true true), a.ret,
        if a.ret ≠ 0 then r
        else (r.push_uint32 (a.rtl_freq.getD 0) l.buffers.fresh).push_uint32 (a.tuner_freq.getD 0)
          l.buffers.fresh⟩)
    (Pop.reads_pure ()) (by decide) (fun _ _ => rfl) rfl
    (by simp only [Call.stub, rtlsdr_rpc_get_xtal_freq]) rfl (by
      intro same q id replied
      cases same
      simp only [Call.stub, rtlsdr_rpc_get_xtal_freq, Call.result]
      generalize l.behave (.get_xtal_freq true true) = answer at replied ⊢
      obtain ⟨ret, rtl, tuner, told⟩ := answer
      simp only at replied
      by_cases failed : ret ≠ 0
      · simp only [if_pos failed] at replied
        obtain ⟨r, received, err⟩ := told_reply l.buffers id l.rpcd
          (onDevice l.rpcd (.get_xtal_freq true true)) ret
        have arrived := replied.trans received
        simp only [arrived, err, if_pos failed]
        cases rtl <;> cases tuner <;> simp [XtalAnswer.OnSuccess, stored, failed, u32_ne_nil]
      · have success : ret = 0 := by simpa using failed
        subst success
        obtain ⟨someRtl, someTuner⟩ := told rfl
        obtain ⟨rtl, rfl⟩ := Option.isSome_iff_exists.mp someRtl
        obtain ⟨tuner, rfl⟩ := Option.isSome_iff_exists.mp someTuner
        have carries := (l.buffers.reply_msg.reset.carries_refl.push (u32 rtl)
          l.buffers.fresh).push (u32 tuner) l.buffers.fresh
        obtain ⟨r, received, err, holds⟩ := recv_reply_eq l.buffers id
          ⟨l.rpcd, onDevice l.rpcd (.get_xtal_freq true true), 0, _⟩ carries
          (by simp [u32_length, fmt_size])
        have arrived := replied.trans received
        have good : ¬ r.get_err ≠ 0 := by
          rw [err]
          exact failed
        obtain ⟨r', first, left⟩ := Pop.reads_uint32 rtl r _ holds
        obtain ⟨_, second⟩ := (Pop.reads_uint32 tuner).pops left
        simp only [arrived, if_neg good, first, second]
        simp [XtalAnswer.OnSuccess, stored])
  simpa [eq_comm] using agrees

theorem word_transparent (l : Link) (dev : Dev) (c : Call) (op : Op) (n : UInt32)
    (handles : ∀ r q, handle_op l.buffers.fresh l.behave l.rpcd r q op =
      withDevice l.rpcd r q (pure ())
        (fun _ => toldWord l.buffers.fresh l.rpcd r (onDevice l.rpcd c) n))
    (device : c.OnDevice = true) (stub : c.stub l dev = wordStub l dev op)
    (result : c.result (l.behave c) = ⟨.word n, []⟩) :
    Transparent l dev c ↔ Opened l.rpcd dev := by
  have agrees := device_transparent l dev c c True op []
    (fun r _ => toldWord l.buffers.fresh l.rpcd r (onDevice l.rpcd c) n)
    (Pop.reads_pure ()) (by decide) handles device (by simp only [stub, wordStub])
    (by
      rw [toldWord]
      split <;> rfl)
    (by
      intro _ q id replied
      apply iff_of_true _ trivial
      rw [stub, result]
      simp only [wordStub]
      rw [toldWord] at replied
      by_cases zero : n = 0
      · rw [if_pos zero] at replied
        obtain ⟨r, received, err⟩ := told_reply l.buffers id l.rpcd (onDevice l.rpcd c) (-1)
        have bad : r.get_err ≠ 0 := by
          rw [err]
          decide
        simp only [replied.trans received, if_pos bad, zero]
      · rw [if_neg zero] at replied
        have carries := l.buffers.reply_msg.reset.carries_refl.push (u32 n) l.buffers.fresh
        obtain ⟨r, received, err, holds⟩ := recv_reply_eq l.buffers id
          ⟨l.rpcd, onDevice l.rpcd c, 0, _⟩ carries (u32_short n)
        have good : ¬ r.get_err ≠ 0 := not_not.mpr err
        obtain ⟨_, popped⟩ := (Pop.reads_uint32 n).pops holds
        simp [replied.trans received, if_neg good, popped])
  simpa using agrees

theorem bandwidth_result (l : Link) (dev : Dev) (bw : UInt32) (apply_bw : Int32)
    (id : q.fmt 5 = l.buffers.id) (calls : List Made) (a : BandwidthAnswer)
    (replied : (send_recv_msg l .set_get_tuner_bw [u32 dev.index, u32 bw, u32 apply_bw.toUInt32]).reply =
      recv_reply l.buffers.reply l.buffers.id
        (Handled.reply ⟨l.rpcd, calls, a.ret,
          if a.ret ≠ 0 then l.buffers.reply_msg.reset
          else l.buffers.reply_msg.reset.push_uint32 (a.applied_bw.getD 0) l.buffers.fresh⟩ q).sent
        l.buffers.fresh) :
    (rtlsdr_rpc_set_and_get_tuner_bandwidth l dev bw apply_bw).result =
        some ⟨.int a.ret, [stored true u32 a.applied_bw]⟩ ↔ a.Failed := by
  obtain ⟨ret, applied, told⟩ := a
  simp only [rtlsdr_rpc_set_and_get_tuner_bandwidth, BandwidthAnswer.Failed]
  by_cases failed : ret ≠ 0
  · simp only [if_pos failed] at replied
    obtain ⟨r, received, err⟩ := told_reply l.buffers id l.rpcd calls ret
    simp only [replied.trans received, err, if_pos failed]
    constructor
    · intro same
      obtain ⟨code, outs⟩ := Result.mk.inj (Option.some.inj same)
      exact ⟨(Value.int.inj code).symm, stored_nil.mp (List.singleton_inj.mp outs).symm⟩
    · rintro ⟨rfl, rfl⟩
      rfl
  · have success : ret = 0 := by simpa using failed
    subst success
    simp

theorem set_and_get_tuner_bandwidth_transparent (l : Link) (dev : Dev) (bw : UInt32) (apply_bw : Int32) :
    Transparent l dev (.set_and_get_tuner_bandwidth bw apply_bw) ↔
      Opened l.rpcd dev ∧
        BandwidthAnswer.Failed (l.behave (.set_and_get_tuner_bandwidth bw apply_bw)) := by
  have agrees := device_transparent l dev (.set_and_get_tuner_bandwidth bw apply_bw)
    (.set_and_get_tuner_bandwidth bw apply_bw)
    (BandwidthAnswer.Failed (l.behave (.set_and_get_tuner_bandwidth bw apply_bw)))
    .set_get_tuner_bw [u32 bw, u32 apply_bw.toUInt32]
    (fun r p =>
      let a : BandwidthAnswer := l.behave (.set_and_get_tuner_bandwidth p.1 p.2)
      ⟨l.rpcd, onDevice l.rpcd (.set_and_get_tuner_bandwidth p.1 p.2), a.ret,
        if a.ret ≠ 0 then r else r.push_uint32 (a.applied_bw.getD 0) l.buffers.fresh⟩)
    (reads_two (Pop.reads_uint32 bw) (Pop.reads_int32 apply_bw)) (words_length bw apply_bw.toUInt32)
    (fun _ _ => rfl) rfl (by simp only [Call.stub, rtlsdr_rpc_set_and_get_tuner_bandwidth]) rfl (by
      intro _ q id replied
      exact bandwidth_result l dev bw apply_bw id _ _ replied)
  simpa using agrees

theorem roomFor_eq (fresh : Memory) (r : Msg) (size : Nat) (bs : Bytes) :
    (roomFor fresh r size bs).off = r.off ∧ (roomFor fresh r size bs).sent = r.sent ∧
      (roomFor fresh r size bs).fmt.load (r.off + 4) bs.length = bs := by
  obtain ⟨grown, same, _, off, kept⟩ := r.realloc_whole (r.off + 4 + size) fresh
  have there : roomFor fresh r size bs = { grown with fmt := grown.fmt.store (grown.off + 4) bs } := by
    simp [roomFor, same]
  rw [there]
  refine ⟨off, ?_, ?_⟩
  · have before : (grown.fmt.store (grown.off + 4) bs).load 0 grown.off = grown.fmt.load 0 grown.off :=
      Memory.load_store_disjoint (Or.inl (by omega))
    simp only [Msg.sent]
    rw [before, off, kept r.off le_rfl]
  · have stored := Memory.load_store grown.fmt (grown.off + 4) 0 bs.length bs (by omega)
    rw [List.drop_zero, List.take_length, off] at stored
    simp only [off]
    exact stored

theorem countAndSkip_carries {start : Msg} (off : r.off = start.off) (sent : r.sent = start.sent)
    (n : UInt32) :
    (countAndSkip r n).Carries start (u32 n ++ r.fmt.load (start.off + 4) n.toNat) := by
  have length : (u32 n).length = 4 := u32_length n
  constructor
  · simp only [countAndSkip, Msg.push_mem_safe, length, List.length_append, Memory.load_length, off,
      Nat.add_assoc]
  · have counted : (r.fmt.store r.off (u32 n)).load 0 (r.off + 4) = r.sent ++ u32 n := by
      have stored := Memory.load_store_behind r.fmt r.off (u32 n)
      rwa [length] at stored
    have behind : (r.fmt.store r.off (u32 n)).load (r.off + 4) n.toNat = r.fmt.load (r.off + 4) n.toNat :=
      Memory.load_store_disjoint (Or.inr (by rw [length]))
    simp only [countAndSkip, Msg.push_mem_safe, length]
    change Memory.load _ 0 (r.off + 4 + n.toNat) = _
    rw [Memory.load_add, Nat.zero_add, counted, behind, off, sent, List.append_assoc]

theorem counted_reply (id : q.fmt 5 = b.id) (rpcd : Rpcd) (calls : List Made)
    (err : Int32) (size : Nat) (bs : Bytes) (n : UInt32) (short : fmt_size + (4 + n.toNat) < 2 ^ 32) :
    let room := roomFor b.fresh b.reply_msg.reset size bs
    ∃ r, recv_reply b.reply b.id
        (Handled.reply ⟨rpcd, calls, err, countAndSkip room n⟩ q).sent b.fresh = some r ∧
      r.get_err = err ∧ r.pop_buf.1 = some (room.fmt.load (fmt_size + 4) n.toNat) := by
  obtain ⟨off, sent, _⟩ := roomFor_eq b.fresh b.reply_msg.reset size bs
  have carries := countAndSkip_carries off sent n
  obtain ⟨r, received, same, holds⟩ := recv_reply_eq b id
    ⟨rpcd, calls, err, countAndSkip (roomFor b.fresh b.reply_msg.reset size bs) n⟩ carries
    (by rwa [List.length_append, u32_length, Memory.load_length])
  exact ⟨r, received, same, Msg.pop_buf_reads (Memory.load_length ..) holds⟩

theorem uncounted_reply (id : q.fmt 5 = b.id) (rpcd : Rpcd) (calls : List Made)
    (err : Int32) (size : Nat) (bs : Bytes) :
    ∃ r, recv_reply b.reply b.id
        (Handled.reply ⟨rpcd, calls, err, roomFor b.fresh b.reply_msg.reset size bs⟩ q).sent
        b.fresh = some r ∧ r.get_err = err := by
  obtain ⟨off, sent, _⟩ := roomFor_eq b.fresh b.reply_msg.reset size bs
  have carries : (roomFor b.fresh b.reply_msg.reset size bs).Carries b.reply_msg.reset [] :=
    ⟨off, sent.trans (List.append_nil _).symm⟩
  obtain ⟨r, received, same, _⟩ := recv_reply_eq b id
    ⟨rpcd, calls, err, roomFor b.fresh b.reply_msg.reset size bs⟩ carries (by decide)
  exact ⟨r, received, same⟩

theorem read_sync_result (l : Link) (dev : Dev) (len : Int32) (id : q.fmt 5 = l.buffers.id)
    (calls : List Made) (a : ReadAnswer len)
    (replied : (send_recv_msg l .read_sync [u32 dev.index, u32 len.toUInt32]).reply =
      recv_reply l.buffers.reply l.buffers.id
        (Handled.reply ⟨l.rpcd, calls, a.ret,
          if a.ret ≠ 0 then roomFor l.buffers.fresh l.buffers.reply_msg.reset len.toUInt32.toNat a.data
          else
            countAndSkip
              (roomFor l.buffers.fresh l.buffers.reply_msg.reset len.toUInt32.toNat a.data)
              (UInt32.ofNat a.data.length)⟩ q).sent l.buffers.fresh) :
    (rtlsdr_rpc_read_sync l dev len).result =
        some ⟨.int a.ret, [a.data, if a.n_read then u32 (UInt32.ofNat a.data.length) else []]⟩ ↔
      a.OnSuccess := by
  obtain ⟨ret, data, n_read, fits, told⟩ := a
  simp only [rtlsdr_rpc_read_sync, ReadAnswer.OnSuccess]
  by_cases failed : ret ≠ 0
  · simp only [if_pos failed] at replied
    obtain ⟨r, received, err⟩ := uncounted_reply l.buffers id l.rpcd calls ret len.toUInt32.toNat data
    simp only [replied.trans received, err, if_pos failed]
    constructor
    · intro same
      obtain ⟨_, outs⟩ := Result.mk.inj (Option.some.inj same)
      obtain ⟨none, last⟩ := List.cons_eq_cons.mp outs
      cases n_read with
      | false => exact Or.inr ⟨none.symm, rfl⟩
      | true => exact absurd (List.singleton_inj.mp last).symm (u32_ne_nil _)
    · rintro (success | ⟨rfl, rfl⟩)
      · exact absurd success failed
      · rfl
  · have success : ret = 0 := by simpa using failed
    subst success
    have some_ : n_read = true := told rfl
    have word : data.length < 2 ^ 31 := by
      have bound := len.toInt_lt
      omega
    have count : (UInt32.ofNat data.length).toNat = data.length :=
      UInt32.toNat_ofNat_of_lt' (by simp only [UInt32.size]; omega)
    simp only [if_neg failed] at replied
    obtain ⟨r, received, err, popped⟩ := counted_reply l.buffers id l.rpcd calls 0 len.toUInt32.toNat data
      (UInt32.ofNat data.length) (by rw [count, fmt_size]; omega)
    have good : ¬ r.get_err ≠ 0 := not_not.mpr err
    have whole := (roomFor_eq l.buffers.fresh l.buffers.reply_msg.reset len.toUInt32.toNat data).2.2
    rw [count] at popped
    have back : r.pop_buf.1 = some data := popped.trans (congrArg some whole)
    have taken : (if 0 ≤ len then data.take len.toInt.toNat else data) = data := by
      split
      · exact List.take_of_length_le fits
      · rfl
    simp only [replied.trans received, if_neg good, back, some_, if_true, taken, true_or]

theorem read_sync_transparent (l : Link) (dev : Dev) (len : Int32) :
    Transparent l dev (.read_sync len) ↔
      Opened l.rpcd dev ∧ ReadAnswer.OnSuccess (l.behave (.read_sync len)) := by
  have reads : Pop.uint32.Reads [u32 len.toUInt32].flatten len.toUInt32 := reads_index len.toUInt32
  have few : [u32 len.toUInt32].flatten.length ≤ 8 := by
    rw [List.flatten_singleton, u32_length]
    decide
  have agrees := device_transparent l dev (.read_sync len) (.read_sync len)
    (ReadAnswer.OnSuccess (l.behave (.read_sync len))) .read_sync [u32 len.toUInt32]
    (fun r len => toldRead l.buffers.fresh l.behave l.rpcd r len) reads few (fun _ _ => rfl) rfl
    (by simp only [Call.stub, rtlsdr_rpc_read_sync]) rfl (by
      intro _ q id replied
      exact read_sync_result l dev len id _ _ replied)
  simpa using agrees

theorem gainBytes_length (gains : List Int32) : (gainBytes gains).length = gains.length * 4 := by
  induction gains with
  | nil => rfl
  | cons gain gains ih =>
    rw [gainBytes, List.flatMap_cons, List.length_append, u32_length]
    change 4 + (gainBytes gains).length = (gains.length + 1) * 4
    omega

def gainSize (dev : Dev) : UInt32 := UInt32.ofNat (dev.gain_count % 2 ^ 32 * 4)

theorem gainSize_toNat (dev : Dev) : (gainSize dev).toNat = dev.gain_count * 4 % 2 ^ 32 := by
  rw [gainSize, UInt32.toNat_ofNat']
  omega

theorem toldGains_table (fresh : Memory) (behave : Behaviour) (rpcd : Rpcd) (r : Msg) (size : UInt32) :
    toldGains fresh behave rpcd r 0 size =
      let a : GainsAnswer := behave (.get_tuner_gains true)
      let room := roomFor fresh r size.toNat (gainBytes a.gains)
      ⟨rpcd, onDevice rpcd (.get_tuner_gains true), a.ret,
        if a.ret ≤ 0 then room else countAndSkip room size⟩ := by
  rw [toldGains, if_neg (not_not.mpr rfl)]

def gainsReply (l : Link) (dev : Dev) (q : Msg) (calls : List Made) (a : GainsAnswer) : Msg :=
  let room := roomFor l.buffers.fresh l.buffers.reply_msg.reset (gainSize dev).toNat (gainBytes a.gains)
  Handled.reply ⟨l.rpcd, calls, a.ret, if a.ret ≤ 0 then room else countAndSkip room (gainSize dev)⟩ q

theorem GainsAnswer.none_stored {a : GainsAnswer} (failed : a.ret ≤ 0) : a.gains = [] := by
  apply List.eq_nil_of_length_eq_zero
  have low := Int32.le_iff_toInt_le.mp failed
  rw [Int32.toInt_zero] at low
  rw [a.count]
  omega

theorem GainsAnswer.some_stored {a : GainsAnswer} (positive : 0 < a.ret) : gainBytes a.gains ≠ [] := by
  have high := Int32.lt_iff_toInt_lt.mp positive
  rw [Int32.toInt_zero] at high
  apply List.ne_nil_of_length_pos
  rw [gainBytes_length, a.count]
  omega

theorem gains_result (l : Link) (dev : Dev) (id : q.fmt 5 = l.buffers.id) (calls : List Made)
    (a : GainsAnswer) (short : 0 < a.ret → fmt_size + (4 + (gainSize dev).toNat) < 2 ^ 32)
    (replied : (send_recv_msg l .get_tuner_gains [u32 dev.index, u32 0, u32 (gainSize dev)]).reply =
      recv_reply l.buffers.reply l.buffers.id (gainsReply l dev q calls a).sent l.buffers.fresh) :
    (rtlsdr_rpc_get_tuner_gains l dev true).result = some ⟨.int a.ret, [gainBytes a.gains]⟩ ↔
      (0 < a.ret → (gainSize dev).toNat = a.gains.length * 4) := by
  have asked : UInt32.ofNat (dev.gain_count % 2 ^ 32 * 4) = gainSize dev := rfl
  simp only [rtlsdr_rpc_get_tuner_gains, if_true, asked]
  by_cases failed : a.ret ≤ 0
  · simp only [gainsReply, if_pos failed] at replied
    obtain ⟨r, received, err⟩ := uncounted_reply l.buffers id l.rpcd calls a.ret (gainSize dev).toNat
      (gainBytes a.gains)
    simp only [replied.trans received, err, if_pos failed, GainsAnswer.none_stored failed]
    apply iff_of_true rfl
    intro positive
    exact absurd positive (Int32.not_lt.mpr failed)
  · have positive : 0 < a.ret := Int32.not_le.mp failed
    simp only [gainsReply, if_neg failed] at replied
    obtain ⟨_, _, whole⟩ := roomFor_eq l.buffers.fresh l.buffers.reply_msg.reset (gainSize dev).toNat
      (gainBytes a.gains)
    obtain ⟨r, received, err, popped⟩ := counted_reply l.buffers id l.rpcd calls a.ret
      (gainSize dev).toNat (gainBytes a.gains) (gainSize dev) (short positive)
    simp only [replied.trans received, err, if_neg failed, popped]
    constructor
    · intro same _
      obtain ⟨_, outs⟩ := Result.mk.inj (Option.some.inj same)
      have lengths := congrArg List.length (List.singleton_inj.mp outs)
      rwa [Memory.load_length, gainBytes_length] at lengths
    · intro expected
      have count : (gainSize dev).toNat = (gainBytes a.gains).length := by
        rw [expected positive, gainBytes_length]
      have back := (congrArg (Memory.load _ (fmt_size + 4)) count).trans whole
      exact congrArg (fun bs => some (Result.mk (.int a.ret) [bs])) back

theorem pop_buf_zeros (off : r.off = fmt_size) (room : fmt_size + 4 ≤ r.size)
    (zeros : ∀ i, fmt_size ≤ i → r.fmt i = 0) : r.pop_buf.1 = some [] := by
  have word : r.fmt.load r.off 4 = [0, 0, 0, 0] := by
    rw [off]
    simp only [Memory.load, List.range_succ, List.range_zero, List.nil_append, List.map_append,
      List.map_cons, List.map_nil, zeros _ (Nat.le_add_right ..)]
    rfl
  have enough : r.CheckSize 4 := by simp only [Msg.CheckSize, off, room]
  have zero : ofLE [0, 0, 0, 0] = 0 := by decide
  simp only [Msg.pop_buf, Msg.pop_uint32, if_pos enough, word, zero, Nat.add_zero]
  rfl

theorem recv_body_empty {m : Msg} (rest : Bytes) (malloc : Option Memory) (room : fmt_size ≤ m.size)
    (little : m.get_size ≤ fmt_size) :
    (recv_body m rest malloc).declared = none ∨ (recv_body m rest malloc).msg = m := by
  have grown : m.realloc m.get_size malloc = some m := if_pos (le_trans little room)
  unfold recv_body
  simp only [grown]
  split
  · exact Or.inl rfl
  · rw [if_pos (by omega)]
    exact Or.inr rfl

theorem oversized_reply {wire : Bytes} {length : Nat} (announced : wire.take 4 = toLE 4 length)
    (large : 2 ^ 32 ≤ length) (little : length ≤ 2 ^ 32 + fmt_size) (id : UInt8) (r : Msg)
    (received : recv_reply (Msg.init fun _ => 0) id wire (fun _ => 0) = some r) :
    r.pop_buf.1 = some [] := by
  let m := (Msg.init fun _ => 0).recv_all 0 fmt_size wire
  unfold recv_reply at received
  simp only at received
  split at received
  · cases received
  · next expected =>
      have long : fmt_size ≤ wire.length := by omega
      have taken : (wire.take fmt_size).length = fmt_size := List.length_take_of_le long
      have front : m.fmt.load 0 4 = wire.take 4 := by
        have stored := Memory.load_store_front (fun _ => 0) (show 4 ≤ (wire.take fmt_size).length by
          rw [taken]; decide)
        rwa [List.take_take] at stored
      have size : m.get_size = length - 2 ^ 32 := by
        rw [Msg.get_size, front, announced, ofLE_toLE_mod]
        simp only [fmt_size] at little
        omega
      have behind (i : Nat) (low : fmt_size ≤ i) : m.fmt i = 0 := by
        change Memory.store (fun _ => 0) 0 (wire.take fmt_size) i = _
        exact Memory.store_outside (Or.inr (by omega))
      have little' : m.get_size ≤ fmt_size := by omega
      obtain ⟨_, declared, same⟩ := Option.map_eq_some_iff.mp received
      cases recv_body_empty (wire.drop fmt_size) (some fun _ => 0) (Nat.le_add_right ..) little' with
      | inl none =>
        rw [none] at declared
        cases declared
      | inr kept =>
        have whole : m.reset = r := (congrArg Msg.reset kept).symm.trans same
        subst whole
        exact pop_buf_zeros rfl (by decide : fmt_size + 4 ≤ fmt_size + 64) behind

/-- The buffers of a connection that was not used yet. -/
def Buffers.unused : Buffers :=
  let msg := Msg.init fun _ => 0
  have sound : msg.Sound := (Station.start_sound fun _ _ => 0) .query
  ⟨0, msg, msg, msg, msg, fun _ => 0, sound, sound⟩

theorem gains_result_oversized (l : Link) (dev : Dev) (calls : List Made)
    (unused : l.buffers = .unused) (a : GainsAnswer) (positive : 0 < a.ret)
    (large : 2 ^ 32 ≤ fmt_size + (4 + (gainSize dev).toNat))
    (replied : (send_recv_msg l .get_tuner_gains [u32 dev.index, u32 0, u32 (gainSize dev)]).reply =
      recv_reply l.buffers.reply l.buffers.id (gainsReply l dev q calls a).sent l.buffers.fresh) :
    (rtlsdr_rpc_get_tuner_gains l dev true).result ≠ some ⟨.int a.ret, [gainBytes a.gains]⟩ := by
  have asked : UInt32.ofNat (dev.gain_count % 2 ^ 32 * 4) = gainSize dev := rfl
  have failed : ¬ a.ret ≤ 0 := Int32.not_le.mpr positive
  have off : (gainsReply l dev q calls a).off = fmt_size + (4 + (gainSize dev).toNat) := by
    simp only [gainsReply, if_neg failed]
    have sent := countAndSkip_carries
      (roomFor_eq l.buffers.fresh l.buffers.reply_msg.reset (gainSize dev).toNat (gainBytes a.gains)).1
      (roomFor_eq l.buffers.fresh l.buffers.reply_msg.reset (gainSize dev).toNat (gainBytes a.gains)).2.1
      (gainSize dev)
    have length := sent.off
    rwa [List.length_append, u32_length, Memory.load_length] at length
  have little : (gainSize dev).toNat ≤ 2 ^ 32 - 4 := by
    rw [gainSize_toNat]
    omega
  have announced : (gainsReply l dev q calls a).sent.take 4 =
      toLE 4 (fmt_size + (4 + (gainSize dev).toNat)) := by
    have inside : 4 ≤ (gainsReply l dev q calls a).off := by omega
    rw [Msg.sent, Memory.load_take inside, ← off]
    exact Handled.reply_front _ q
  have differ (err : Int32) : some (Result.mk (.int err) [[]]) ≠ some ⟨.int a.ret, [gainBytes a.gains]⟩ := by
    intro same
    obtain ⟨_, outs⟩ := Result.mk.inj (Option.some.inj same)
    exact GainsAnswer.some_stored positive (List.singleton_inj.mp outs).symm
  simp only [rtlsdr_rpc_get_tuner_gains, if_true, asked]
  rw [unused] at replied
  cases received : recv_reply (Msg.init fun _ => 0) 0 (gainsReply l dev q calls a).sent (fun _ => 0) with
  | none =>
    simp only [replied.trans received]
    exact differ 0
  | some r =>
    have empty := oversized_reply announced large (by omega) 0 r received
    simp only [replied.trans received, empty]
    split
    · exact differ _
    · exact differ _

section

variable (l : Link) (dev : Dev)

theorem reads_gains (is_null gain_size : UInt32) :
    Pop.Reads (do let is_null ← Pop.uint32; let gain_size ← Pop.uint32; pure (is_null, gain_size))
      [u32 is_null, u32 gain_size].flatten (is_null, gain_size) :=
  reads_two (Pop.reads_uint32 is_null) (Pop.reads_uint32 gain_size)

theorem gains_calls (gains : Bool) :
    ((Call.get_tuner_gains gains).stub l dev).calls =
      (send_recv_msg l .get_tuner_gains
        [u32 dev.index, u32 (if gains then 0 else 1), u32 (gainSize dev)]).calls := by
  simp only [Call.stub, rtlsdr_rpc_get_tuner_gains, gainSize]

theorem gain_count_transparent : Transparent l dev (.get_tuner_gains false) ↔ Opened l.rpcd dev := by
  let a : GainsAnswer := l.behave (.get_tuner_gains false)
  have agrees := device_transparent l dev (.get_tuner_gains false) (.get_tuner_gains false) True
    .get_tuner_gains [u32 1, u32 (gainSize dev)]
    (fun r p => toldGains l.buffers.fresh l.behave l.rpcd r p.1 p.2)
    (reads_gains 1 (gainSize dev)) (words_length 1 (gainSize dev)) (fun _ _ => rfl) rfl
    (gains_calls l dev false) rfl (by
      intro _ q id replied
      obtain ⟨r, received, err⟩ := told_reply l.buffers id l.rpcd
        (onDevice l.rpcd (.get_tuner_gains false)) a.ret
      have arrived : (send_recv_msg l .get_tuner_gains
          [u32 dev.index, u32 1, u32 (UInt32.ofNat (dev.gain_count % 2 ^ 32 * 4))]).reply = some r :=
        replied.trans received
      apply iff_of_true _ trivial
      change (rtlsdr_rpc_get_tuner_gains l dev false).result = some ⟨.int a.ret, [[]]⟩
      simp only [rtlsdr_rpc_get_tuner_gains, Bool.false_eq_true, if_false, arrived, err]
      split <;> rfl)
  simpa using agrees

theorem gains_transparent_of (Answered : Prop) (result : ∀ q, q.fmt 5 = l.buffers.id →
      (send_recv_msg l .get_tuner_gains [u32 dev.index, u32 0, u32 (gainSize dev)]).reply =
        recv_reply l.buffers.reply l.buffers.id
          (gainsReply l dev q (onDevice l.rpcd (.get_tuner_gains true))
            (l.behave (.get_tuner_gains true))).sent l.buffers.fresh →
      ((rtlsdr_rpc_get_tuner_gains l dev true).result =
        some (Call.result (.get_tuner_gains true) (l.behave (.get_tuner_gains true))) ↔ Answered)) :
    Transparent l dev (.get_tuner_gains true) ↔ Opened l.rpcd dev ∧ Answered := by
  have agrees := device_transparent l dev (.get_tuner_gains true) (.get_tuner_gains true) Answered
    .get_tuner_gains [u32 0, u32 (gainSize dev)]
    (fun r p => toldGains l.buffers.fresh l.behave l.rpcd r p.1 p.2)
    (reads_gains 0 (gainSize dev)) (words_length 0 (gainSize dev)) (fun _ _ => rfl) rfl
    (gains_calls l dev true) rfl
    (by
      intro _ q id replied
      simp only [toldGains_table] at replied
      exact result q id replied)
  simpa using agrees

end

theorem get_tuner_gains_transparent (behave : Behaviour) (env : Option UInt32) (dev : Dev) :
    (∀ buffers, Transparent ⟨buffers, rpcd, behave, env⟩ dev (.get_tuner_gains true)) ↔
      Opened rpcd dev ∧ GainsAnswer.Expected (behave (.get_tuner_gains true)) dev.gain_count := by
  let a : GainsAnswer := behave (.get_tuner_gains true)
  have size := gainSize_toNat dev
  have agrees (short : 0 < a.ret → fmt_size + (4 + (gainSize dev).toNat) < 2 ^ 32) (buffers : Buffers) :=
    gains_transparent_of ⟨buffers, rpcd, behave, env⟩ dev _
      (fun q id replied => gains_result ⟨buffers, rpcd, behave, env⟩ dev id _ a short replied)
  constructor
  · intro all
    by_cases short : 0 < a.ret → fmt_size + (4 + (gainSize dev).toNat) < 2 ^ 32
    · obtain ⟨opened, expected⟩ := (agrees short .unused).mp (all .unused)
      refine ⟨opened, ?_⟩
      intro positive
      have enough := short positive
      have count := expected positive
      rw [count] at enough
      exact ⟨size.symm.trans count, enough⟩
    · push Not at short
      obtain ⟨positive, large⟩ := short
      have broken := gains_transparent_of ⟨.unused, rpcd, behave, env⟩ dev False (by
        intro q _ replied
        apply iff_false_intro
        exact gains_result_oversized ⟨.unused, rpcd, behave, env⟩ dev _ rfl a positive large replied)
      exact (broken.mp (all .unused)).2.elim
  · rintro ⟨opened, expected⟩ buffers
    have short : 0 < a.ret → fmt_size + (4 + (gainSize dev).toNat) < 2 ^ 32 := by
      intro positive
      obtain ⟨count, enough⟩ := expected positive
      rwa [size, count]
    apply (agrees short buffers).mpr
    refine ⟨opened, ?_⟩
    intro positive
    exact size.trans (expected positive).1

theorem Pop.reads_text (s : Text) : Pop.text.Reads (strBytes s.val) s := by
  intro msg rest holds
  obtain ⟨msg', popped, left⟩ := Pop.reads_str s.property msg rest holds
  refine ⟨msg', ?_, left⟩
  have found : msg.pop_str = some (s.val, msg') := popped
  simp only [Pop.text, found, Option.bind_some, dif_pos s.property]

theorem long_serial (l : Link) {s : Text} (long : ¬ FitsMessage s)
    (calls : (rtlsdr_rpc_get_index_by_serial l (some s)).calls =
      [⟨none, .get_index_by_serial (some s)⟩]) : False := by
  let b := l.buffers
  have off : 4 < (request b .get_index_by_serial [strBytes s.val]).off := by
    rw [request_off]
    exact Nat.lt_add_right _ (by decide)
  have sent := Msg.sent_get off
  rw [(request_header b .get_index_by_serial [strBytes s.val]).1] at sent
  have own := b.query_msg_sound
  have reset : b.query_msg.reset.Sound := ⟨own.header, own.word, le_rfl, own.header⟩
  have sound := recv_msg_sound reset (request b .get_index_by_serial [strBytes s.val]).sent (some b.fresh)
  simp only [rtlsdr_rpc_get_index_by_serial, send_recv_msg] at calls
  split at calls
  · cases calls
  · next declared accepted =>
      obtain ⟨start, code⟩ := recv_query_op accepted sent
      have known := congrArg Op.ofCode code
      rw [Op.ofCode_code] at known
      simp only [handle_query, Msg.get_op] at calls
      rw [known] at calls
      simp only [handle_op, withArgs] at calls
      split at calls
      · cases calls
      · next t _ popped =>
          have same : s = t := by
            cases calls
            rfl
          obtain ⟨⟨text, msg⟩, found, whole⟩ := Option.bind_eq_some_iff.mp popped
          simp only at whole
          split at whole
          · cases whole
            apply long
            rw [same]
            exact popped_fits start sound.word found
          · cases whole

theorem get_index_by_serial_transparent (l : Link) (dev : Dev) (serial : Option Text) :
    Transparent l dev (.get_index_by_serial serial) ↔ ∃ s, serial = some s ∧ FitsMessage s := by
  cases serial with
  | none =>
    constructor
    · rintro ⟨calls, _⟩
      cases calls
    · rintro ⟨_, absent, _⟩
      cases absent
  | some s =>
    constructor
    · rintro ⟨calls, _⟩
      by_contra none
      exact long_serial l (fun fits => none ⟨s, rfl, fits⟩) calls
    · rintro ⟨_, same, fits⟩
      cases same
      have reads : Pop.text.Reads [strBytes s.val].flatten s := by
        rw [List.flatten_singleton]
        exact Pop.reads_text s
      have short : fmt_size + [strBytes s.val].flatten.length < 2 ^ 32 := by
        rw [List.flatten_singleton, strBytes, List.length_append, List.length_singleton]
        exact fits
      obtain ⟨q, id, exchanged⟩ := args_exchange l .get_index_by_serial [strBytes s.val]
        (fun r serial => told l.rpcd r (offDevice (.get_index_by_serial (some serial)))
          (l.behave (.get_index_by_serial (some serial)))) reads short (fun _ _ => rfl)
      obtain ⟨r, received, err⟩ := told_reply l.buffers id l.rpcd
        (offDevice (.get_index_by_serial (some s))) (l.behave (.get_index_by_serial (some s)))
      constructor
      · simp only [Call.stub, rtlsdr_rpc_get_index_by_serial, exchanged]
        rfl
      · have arrived := (congrArg Exchange.reply exchanged).trans received
        simp only [Call.stub, rtlsdr_rpc_get_index_by_serial, arrived, Option.elim_some, err]
        rfl

theorem open_transparent (l : Link) (dev : Dev) (index : UInt32) :
    Transparent l dev (.open index) ↔ l.rpcd.dev = false ∧ l.env = some index := by
  cases env : l.env with
  | none =>
    constructor
    · rintro ⟨calls, _⟩
      simp only [Call.stub, rtlsdr_rpc_open, env] at calls
      cases calls
    · rintro ⟨_, absent⟩
      cases absent
  | some given =>
    obtain ⟨q, asked, exchanged⟩ := send_recv_msg_eq l .open [u32 given] (index_short given)
    have holds : q.Holds [u32 given].flatten := asked.holds
    cases opened : l.rpcd.dev with
    | true =>
      have none : (send_recv_msg l .open [u32 given]).calls = [] := by
        rw [exchanged]
        simp [handle_op, opened, told]
      constructor
      · rintro ⟨calls, _⟩
        simp only [Call.stub, rtlsdr_rpc_open, env, none] at calls
        cases calls
      · rintro ⟨absent, _⟩
        cases absent
    | false =>
      simp only [handle_op, opened, Bool.false_eq_true, if_false,
        withArgs_eq (reads_index given) holds] at exchanged
      have made : (send_recv_msg l .open [u32 given]).calls = [⟨none, .open given⟩] := by
        rw [exchanged]
        rfl
      let answer : Int32 := l.behave (.open given)
      obtain ⟨r, received, err⟩ := told_reply l.buffers asked.id
        ⟨decide (answer = 0), given⟩ (offDevice (.open given)) answer
      have arrived := (congrArg Exchange.reply exchanged).trans received
      constructor
      · rintro ⟨calls, _⟩
        simp only [Call.stub, rtlsdr_rpc_open, env, made] at calls
        cases calls
        exact ⟨rfl, rfl⟩
      · rintro ⟨_, same⟩
        cases same
        constructor
        · simp only [Call.stub, rtlsdr_rpc_open, env, made]
          rfl
        · simp only [Call.stub, rtlsdr_rpc_open, env, arrived, Option.elim_some, err]
          rfl

theorem Call.stub_transparent (l : Link) (dev : Dev) {c : Call} (other : c ≠ .get_tuner_gains true) :
    Transparent l dev c ↔ c.Meets l.rpcd l.behave l.env dev := by
  cases c with
  | get_device_count => exact iff_of_true (get_device_count_transparent l dev) trivial
  | get_device_name index => exact get_device_name_transparent l dev index
  | get_device_usb_strings index manufact product serial =>
    exact get_device_usb_strings_transparent l dev index manufact product serial
  | get_index_by_serial serial => exact get_index_by_serial_transparent l dev serial
  | «open» index => exact open_transparent l dev index
  | close => exact plain_transparent ⟨false, l.rpcd.did⟩ (l.behave .close)
  | set_xtal_freq rtl_freq tuner_freq =>
    exact two_transparent (fun p => .set_xtal_freq p.1 p.2)
      (fun p => l.behave (.set_xtal_freq p.1 p.2)) (Pop.reads_uint32 rtl_freq)
      (Pop.reads_uint32 tuner_freq) (words_length rtl_freq tuner_freq)
  | get_xtal_freq rtl_freq tuner_freq => exact get_xtal_freq_transparent l dev rtl_freq tuner_freq
  | get_usb_strings manufact product serial =>
    exact get_usb_strings_transparent l dev manufact product serial
  | set_center_freq freq =>
    exact one_transparent .set_center_freq (fun x => l.behave (.set_center_freq x)) (Pop.reads_uint32 freq)
  | get_center_freq =>
    exact word_transparent l dev .get_center_freq .get_center_freq (l.behave .get_center_freq)
      (fun _ _ => rfl) rfl rfl rfl
  | set_freq_correction ppm =>
    exact one_transparent .set_freq_correction (fun x => l.behave (.set_freq_correction x)) (Pop.reads_int32 ppm)
  | get_freq_correction => exact plain_transparent l.rpcd (l.behave .get_freq_correction)
  | get_tuner_type => exact plain_transparent l.rpcd (l.behave .get_tuner_type)
  | get_tuner_gains gains =>
    cases gains with
    | false =>
      apply (gain_count_transparent l dev).trans
      exact (and_iff_left fun absent => by cases absent).symm
    | true => exact absurd rfl other
  | set_tuner_gain gain =>
    exact one_transparent .set_tuner_gain (fun x => l.behave (.set_tuner_gain x)) (Pop.reads_int32 gain)
  | set_and_get_tuner_bandwidth bw apply_bw =>
    exact set_and_get_tuner_bandwidth_transparent l dev bw apply_bw
  | get_tuner_gain => exact plain_transparent l.rpcd (l.behave .get_tuner_gain)
  | set_tuner_if_gain stage gain =>
    exact two_transparent (fun p => .set_tuner_if_gain p.1 p.2)
      (fun p => l.behave (.set_tuner_if_gain p.1 p.2)) (Pop.reads_int32 stage) (Pop.reads_int32 gain)
      (words_length stage.toUInt32 gain.toUInt32)
  | set_tuner_gain_mode manual =>
    exact one_transparent .set_tuner_gain_mode (fun x => l.behave (.set_tuner_gain_mode x)) (Pop.reads_int32 manual)
  | set_sample_rate rate =>
    exact one_transparent .set_sample_rate (fun x => l.behave (.set_sample_rate x)) (Pop.reads_uint32 rate)
  | get_sample_rate =>
    exact word_transparent l dev .get_sample_rate .get_sample_rate (l.behave .get_sample_rate)
      (fun _ _ => rfl) rfl rfl rfl
  | set_testmode on =>
    exact one_transparent .set_testmode (fun x => l.behave (.set_testmode x)) (Pop.reads_int32 on)
  | set_agc_mode on =>
    exact one_transparent .set_agc_mode (fun x => l.behave (.set_agc_mode x)) (Pop.reads_int32 on)
  | set_direct_sampling on =>
    exact one_transparent .set_direct_sampling (fun x => l.behave (.set_direct_sampling x)) (Pop.reads_int32 on)
  | get_direct_sampling => exact plain_transparent l.rpcd (l.behave .get_direct_sampling)
  | set_offset_tuning on =>
    exact one_transparent .set_offset_tuning (fun x => l.behave (.set_offset_tuning x)) (Pop.reads_int32 on)
  | get_offset_tuning => exact plain_transparent l.rpcd (l.behave .get_offset_tuning)
  | reset_buffer => exact plain_transparent l.rpcd (l.behave .reset_buffer)
  | read_sync len => exact read_sync_transparent l dev len

/-- A stub is transparent, whatever earlier calls left in the message buffers, exactly when
    its call meets the condition. -/
theorem stubs_transparent (rpcd : Rpcd) (behave : Behaviour) (env : Option UInt32) (dev : Dev) (c : Call) :
    (∀ buffers, Transparent ⟨buffers, rpcd, behave, env⟩ dev c) ↔ c.Meets rpcd behave env dev := by
  by_cases gains : c = .get_tuner_gains true
  · subst gains
    apply (get_tuner_gains_transparent rpcd behave env dev).trans
    exact and_congr_right fun _ => ⟨fun expected _ => expected, fun expected => expected rfl⟩
  · have agrees (buffers : Buffers) :=
      Call.stub_transparent ⟨buffers, rpcd, behave, env⟩ dev gains
    constructor
    · exact fun all => (agrees .unused).mp (all .unused)
    · exact fun meets buffers => (agrees buffers).mpr meets

/-- A bandwidth that the library sets is an error to the client. -/
theorem bandwidth_stub_fails :
    ¬ ∀ (buffers : Buffers) (rpcd : Rpcd) (behave : Behaviour) (env : Option UInt32) (dev : Dev) (c : Call),
      Transparent ⟨buffers, rpcd, behave, env⟩ dev c := by
  intro all
  have agrees := set_and_get_tuner_bandwidth_transparent ⟨.unused, ⟨true, 0⟩, .zeros, none⟩ ⟨0, 32⟩
    300000 1
  have failed := (agrees.mp (all _ _ _ _ _ _)).2.1
  exact absurd failed (show (0 : Int32) ≠ -1 by decide)

end Soapy.Rtl
