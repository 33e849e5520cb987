import Soapy.Rtl.Handler

/-! # The stubs of the rtlsdr rpc client

A stub pushes its arguments behind the index of the device, sends the query and waits
for the reply of its own slot. Neither side runs out of memory and the connection holds,
but nothing is known of what the buffers held before.
-/

namespace Soapy.Rtl

open Lib

/-- `rtlsdr_rpc_dev_t`. -/
structure Dev where
  index : UInt32
  gain_count : Nat

/-- The messages a call goes through: the query and the reply of the slot that `alloc_qr`
    gives, and the two of the server. -/
structure Buffers where
  id : UInt8
  query : Msg
  reply : Msg
  query_msg : Msg
  reply_msg : Msg
  fresh : Memory
  reply_sound : reply.Sound
  query_msg_sound : query_msg.Sound

/-- What a stub meets: the buffers, the server, the library behind it, and what `atoi` makes
    of `RTLSDR_RPC_DEVICE_INDEX`. -/
structure Link where
  buffers : Buffers
  rpcd : Rpcd
  behave : Behaviour
  env : Option UInt32

structure Exchange where
  rpcd : Rpcd
  calls : List Made
  reply : Option Msg

/-- The query as `send_msg` sends it. -/
def request (b : Buffers) (op : Op) (args : List Bytes) : Msg :=
  let q := args.foldl (fun q bs => q.push_mem bs b.fresh) ((b.query.reset.set_id b.id).set_op op)
  q.set_size q.off

/-- The client's `recv_msg` of a message for the waiting slot itself, and the reset behind it. For
    another slot the thread would go on waiting. -/
def recv_reply (reply : Msg) (id : UInt8) (wire : Bytes) (fresh : Memory) : Option Msg :=
  let m := reply.recv_all 0 fmt_size wire
  if wire.length < fmt_size ∨ m.get_id ≠ id.toNat then none
  else
    let receipt := recv_body m (wire.drop fmt_size) (some fresh)
    receipt.declared.map (fun _ => receipt.msg.reset)

/-- A server that cannot receive the query closes the connection. -/
def send_recv_msg (l : Link) (op : Op) (args : List Bytes) : Exchange :=
  let b := l.buffers
  let receipt := recv_query b.query_msg (request b op args).sent (some b.fresh)
  match receipt.declared with
  | none => ⟨l.rpcd, [], none⟩
  | some _ =>
    let h := handle_query b.fresh l.behave l.rpcd b.reply_msg receipt.msg
    ⟨h.rpcd, h.calls, recv_reply b.reply b.id (h.reply receipt.msg).sent b.fresh⟩

/-- What became of a call. Without a result the stub does not return: it follows a `NULL` or
    goes on behind the end of a buffer. -/
structure Run where
  rpcd : Rpcd
  calls : List Made
  dev : Option Dev
  result : Option Result

def crashed (l : Link) (dev : Option Dev) : Run := ⟨l.rpcd, [], dev, none⟩

def errStub (l : Link) (dev : Dev) (op : Op) (args : List Bytes) : Run :=
  let x := send_recv_msg l op (u32 dev.index :: args)
  ⟨x.rpcd, x.calls, some dev, some ⟨.int (x.reply.elim (-1) Msg.get_err), []⟩⟩

/-- The stubs that return a number, and 0 where there is an error. -/
def wordStub (l : Link) (dev : Dev) (op : Op) : Run :=
  let x := send_recv_msg l op [u32 dev.index]
  let n : UInt32 :=
    match x.reply with
    | none => 0
    | some r => if r.get_err ≠ 0 then 0 else (Pop.uint32 r).elim 0 Prod.fst
  ⟨x.rpcd, x.calls, some dev, some ⟨.word n, []⟩⟩

/-- One string after another is copied to where its pointer points; after a failed pop the
    rest is left alone. -/
def copyStrings : List Bool → Msg → Option (List Bytes)
  | [], _ => some []
  | given :: pointers, r =>
    match Pop.str r with
    | none => some (List.replicate (pointers.length + 1) [])
    | some (s, r) => if given then (copyStrings pointers r).map (strBytes s :: ·) else none

/-- A failed pop leaves the error at 0. -/
def stringsStub (l : Link) (dev : Option Dev) (op : Op) (index : UInt32)
    (manufact product serial : Bool) : Run :=
  let x := send_recv_msg l op [u32 index]
  let result : Option Result :=
    match x.reply with
    | none => some ⟨.int (-1), [[], [], []]⟩
    | some r =>
      if r.get_err ≠ 0 then some ⟨.int r.get_err, [[], [], []]⟩
      else (copyStrings [manufact, product, serial] r).map (fun outs => ⟨.int 0, outs⟩)
  ⟨x.rpcd, x.calls, dev, result⟩

def rtlsdr_rpc_get_device_count (l : Link) : Run :=
  let x := send_recv_msg l .get_device_count []
  let n : UInt32 := x.reply.elim 0 (fun r => (Pop.uint32 r).elim 0 Prod.fst)
  ⟨x.rpcd, x.calls, none, some ⟨.word n, []⟩⟩

def rtlsdr_rpc_get_device_name (l : Link) (index : UInt32) : Run :=
  let x := send_recv_msg l .get_device_name [u32 index]
  let result : Option Result :=
    match x.reply with
    | none => some ⟨.text none, []⟩
    | some r => (Pop.str r).map (fun (s, _) => ⟨.text (some s), []⟩)
  ⟨x.rpcd, x.calls, none, result⟩

def rtlsdr_rpc_get_device_usb_strings (l : Link) (index : UInt32)
    (manufact product serial : Bool) : Run :=
  stringsStub l none .get_device_usb_strings index manufact product serial

def rtlsdr_rpc_get_index_by_serial (l : Link) (serial : Option Text) : Run :=
  match serial with
  | none => crashed l none
  | some s =>
    let x := send_recv_msg l .get_index_by_serial [strBytes s.val]
    ⟨x.rpcd, x.calls, none, some ⟨.int (x.reply.elim (-1) Msg.get_err), []⟩⟩

/-- The index that is given is not used. -/
def rtlsdr_rpc_open (l : Link) (_index : UInt32) : Run :=
  match l.env with
  | none => crashed l none
  | some index =>
    let x := send_recv_msg l .open [u32 index]
    let err : Int32 := x.reply.elim (-1) Msg.get_err
    ⟨x.rpcd, x.calls, if err ≠ 0 then none else some ⟨index, 32⟩, some ⟨.int err, []⟩⟩

def rtlsdr_rpc_close (l : Link) (dev : Dev) : Run := { errStub l dev .close [] with dev := none }

def rtlsdr_rpc_set_xtal_freq (l : Link) (dev : Dev) (rtl_freq tuner_freq : UInt32) : Run :=
  errStub l dev .set_xtal_freq [u32 rtl_freq, u32 tuner_freq]

def rtlsdr_rpc_get_xtal_freq (l : Link) (dev : Dev) (rtl_freq tuner_freq : Bool) : Run :=
  let x := send_recv_msg l .get_xtal_freq [u32 dev.index]
  let result : Option Result :=
    match x.reply with
    | none => some ⟨.int (-1), [[], []]⟩
    | some r =>
      if r.get_err ≠ 0 then some ⟨.int r.get_err, [[], []]⟩
      else
        match Pop.uint32 r, rtl_freq with
        | none, _ => some ⟨.int (-1), [[], []]⟩
        | some _, false => none
        | some (rtl, r), true =>
          match Pop.uint32 r, tuner_freq with
          | none, _ => some ⟨.int (-1), [u32 rtl, []]⟩
          | some _, false => none
          | some (tuner, _), true => some ⟨.int 0, [u32 rtl, u32 tuner]⟩
  ⟨x.rpcd, x.calls, some dev, result⟩

def rtlsdr_rpc_get_usb_strings (l : Link) (dev : Dev) (manufact product serial : Bool) : Run :=
  stringsStub l (some dev) .get_usb_strings dev.index manufact product serial

def rtlsdr_rpc_set_center_freq (l : Link) (dev : Dev) (freq : UInt32) : Run :=
  errStub l dev .set_center_freq [u32 freq]

def rtlsdr_rpc_get_center_freq (l : Link) (dev : Dev) : Run := wordStub l dev .get_center_freq

def rtlsdr_rpc_set_freq_correction (l : Link) (dev : Dev) (ppm : Int32) : Run :=
  errStub l dev .set_freq_correction [u32 ppm.toUInt32]

def rtlsdr_rpc_get_freq_correction (l : Link) (dev : Dev) : Run :=
  errStub l dev .get_freq_correction []

def rtlsdr_rpc_get_tuner_type (l : Link) (dev : Dev) : Run := errStub l dev .get_tuner_type []

/-- The number of the gains is not known before the reply, so the size of the last table is
    asked for. -/
def rtlsdr_rpc_get_tuner_gains (l : Link) (dev : Dev) (gains : Bool) : Run :=
  let is_null : UInt32 := if gains then 0 else 1
  let gain_size : UInt32 := UInt32.ofNat (dev.gain_count % 2 ^ 32 * 4)
  let x := send_recv_msg l .get_tuner_gains [u32 dev.index, u32 is_null, u32 gain_size]
  let answer : Dev × Result :=
    match x.reply with
    | none => (dev, ⟨.int 0, [[]]⟩)
    | some r =>
      if r.get_err ≤ 0 then (dev, ⟨.int r.get_err, [[]]⟩)
      else
        ({ dev with gain_count := r.get_err.toInt.toNat },
          if gains then
            match r.pop_buf.1 with
            | none => ⟨.int 0, [[]]⟩
            | some tmp => ⟨.int r.get_err, [tmp]⟩
          else ⟨.int r.get_err, [[]]⟩)
  ⟨x.rpcd, x.calls, some answer.1, some answer.2⟩

def rtlsdr_rpc_set_tuner_gain (l : Link) (dev : Dev) (gain : Int32) : Run :=
  errStub l dev .set_tuner_gain [u32 gain.toUInt32]

/-- The error keeps its first value on every path. -/
def rtlsdr_rpc_set_and_get_tuner_bandwidth (l : Link) (dev : Dev) (bw : UInt32) (apply_bw : Int32) :
    Run :=
  let x := send_recv_msg l .set_get_tuner_bw [u32 dev.index, u32 bw, u32 apply_bw.toUInt32]
  let applied_bw : Bytes :=
    match x.reply with
    | none => []
    | some r => if r.get_err ≠ 0 then [] else (Pop.uint32 r).elim [] (fun (n, _) => u32 n)
  ⟨x.rpcd, x.calls, some dev, some ⟨.int (-1), [applied_bw]⟩⟩

def rtlsdr_rpc_get_tuner_gain (l : Link) (dev : Dev) : Run := errStub l dev .get_tuner_gain []

def rtlsdr_rpc_set_tuner_if_gain (l : Link) (dev : Dev) (stage gain : Int32) : Run :=
  errStub l dev .set_tuner_if_gain [u32 stage.toUInt32, u32 gain.toUInt32]

def rtlsdr_rpc_set_tuner_gain_mode (l : Link) (dev : Dev) (manual : Int32) : Run :=
  errStub l dev .set_tuner_gain_mode [u32 manual.toUInt32]

def rtlsdr_rpc_set_sample_rate (l : Link) (dev : Dev) (rate : UInt32) : Run :=
  errStub l dev .set_sample_rate [u32 rate]

def rtlsdr_rpc_get_sample_rate (l : Link) (dev : Dev) : Run := wordStub l dev .get_sample_rate

def rtlsdr_rpc_set_testmode (l : Link) (dev : Dev) (on : Int32) : Run :=
  errStub l dev .set_testmode [u32 on.toUInt32]

def rtlsdr_rpc_set_agc_mode (l : Link) (dev : Dev) (on : Int32) : Run :=
  errStub l dev .set_agc_mode [u32 on.toUInt32]

def rtlsdr_rpc_set_direct_sampling (l : Link) (dev : Dev) (on : Int32) : Run :=
  errStub l dev .set_direct_sampling [u32 on.toUInt32]

def rtlsdr_rpc_get_direct_sampling (l : Link) (dev : Dev) : Run :=
  errStub l dev .get_direct_sampling []

def rtlsdr_rpc_set_offset_tuning (l : Link) (dev : Dev) (on : Int32) : Run :=
  errStub l dev .set_offset_tuning [u32 on.toUInt32]

def rtlsdr_rpc_get_offset_tuning (l : Link) (dev : Dev) : Run :=
  errStub l dev .get_offset_tuning []

def rtlsdr_rpc_reset_buffer (l : Link) (dev : Dev) : Run := errStub l dev .reset_buffer []

/-- `(size_t)len` of a negative length is larger than any size. -/
def rtlsdr_rpc_read_sync (l : Link) (dev : Dev) (len : Int32) : Run :=
  let x := send_recv_msg l .read_sync [u32 dev.index, u32 len.toUInt32]
  let result : Result :=
    match x.reply with
    | none => ⟨.int (-1), [[], []]⟩
    | some r =>
      if r.get_err ≠ 0 then ⟨.int r.get_err, [[], []]⟩
      else
        match r.pop_buf.1 with
        | none => ⟨.int (-1), [[], []]⟩
        | some tmp =>
          let tmp := if 0 ≤ len then tmp.take len.toInt.toNat else tmp
          ⟨.int 0, [tmp, u32 (UInt32.ofNat tmp.length)]⟩
  ⟨x.rpcd, x.calls, some dev, some result⟩

def Call.stub (l : Link) (dev : Dev) : Call → Run
  | .get_device_count => rtlsdr_rpc_get_device_count l
  | .get_device_name index => rtlsdr_rpc_get_device_name l index
  | .get_device_usb_strings index manufact product serial =>
    rtlsdr_rpc_get_device_usb_strings l index manufact product serial
  | .get_index_by_serial serial => rtlsdr_rpc_get_index_by_serial l serial
  | .open index => rtlsdr_rpc_open l index
  | .close => rtlsdr_rpc_close l dev
  | .set_xtal_freq rtl_freq tuner_freq => rtlsdr_rpc_set_xtal_freq l dev rtl_freq tuner_freq
  | .get_xtal_freq rtl_freq tuner_freq => rtlsdr_rpc_get_xtal_freq l dev rtl_freq tuner_freq
  | .get_usb_strings manufact product serial =>
    rtlsdr_rpc_get_usb_strings l dev manufact product serial
  | .set_center_freq freq => rtlsdr_rpc_set_center_freq l dev freq
  | .get_center_freq => rtlsdr_rpc_get_center_freq l dev
  | .set_freq_correction ppm => rtlsdr_rpc_set_freq_correction l dev ppm
  | .get_freq_correction => rtlsdr_rpc_get_freq_correction l dev
  | .get_tuner_type => rtlsdr_rpc_get_tuner_type l dev
  | .get_tuner_gains gains => rtlsdr_rpc_get_tuner_gains l dev gains
  | .set_tuner_gain gain => rtlsdr_rpc_set_tuner_gain l dev gain
  | .set_and_get_tuner_bandwidth bw apply_bw =>
    rtlsdr_rpc_set_and_get_tuner_bandwidth l dev bw apply_bw
  | .get_tuner_gain => rtlsdr_rpc_get_tuner_gain l dev
  | .set_tuner_if_gain stage gain => rtlsdr_rpc_set_tuner_if_gain l dev stage gain
  | .set_tuner_gain_mode manual => rtlsdr_rpc_set_tuner_gain_mode l dev manual
  | .set_sample_rate rate => rtlsdr_rpc_set_sample_rate l dev rate
  | .get_sample_rate => rtlsdr_rpc_get_sample_rate l dev
  | .set_testmode on => rtlsdr_rpc_set_testmode l dev on
  | .set_agc_mode on => rtlsdr_rpc_set_agc_mode l dev on
  | .set_direct_sampling on => rtlsdr_rpc_set_direct_sampling l dev on
  | .get_direct_sampling => rtlsdr_rpc_get_direct_sampling l dev
  | .set_offset_tuning on => rtlsdr_rpc_set_offset_tuning l dev on
  | .get_offset_tuning => rtlsdr_rpc_get_offset_tuning l dev
  | .reset_buffer => rtlsdr_rpc_reset_buffer l dev
  | .read_sync len => rtlsdr_rpc_read_sync l dev len

end Soapy.Rtl
