import Soapy.Rtl.Calls

/-! # The handler of rpcd

Each case of `handle_query` pops its arguments, looks for the device where it needs one,
calls the library and pushes what it answered. A case that gives up keeps the error -1.
-/

namespace Soapy.Rtl

open Lib

/-- The part of `rpcd_t` that outlives a query: whether `dev` is not `NULL`, and the index
    of the last open. -/
structure Rpcd where
  dev : Bool
  did : UInt32

structure Made where
  device : Option UInt32
  call : Call

/-- What a query leads to, and the reply message without its header. -/
structure Handled where
  rpcd : Rpcd
  calls : List Made
  err : Int32
  r : Msg

section

variable (fresh : Memory) (behave : Behaviour) (rpcd : Rpcd) (r : Msg)

/-- `goto on_error` before anything was called. -/
def gaveUp : Handled := ⟨rpcd, [], -1, r⟩

/-- The arguments are popped first. -/
def withArgs {α : Type} (q : Msg) (args : Pop α) (serve : α → Handled) : Handled :=
  match args q with
  | none => gaveUp rpcd r
  | some (a, _) => serve a

/-- The index is popped before the other arguments, and compared behind them. -/
def withDevice {α : Type} (q : Msg) (args : Pop α) (serve : α → Handled) : Handled :=
  withArgs rpcd r q (do let did ← Pop.uint32; let a ← args; pure (did, a)) fun (did, a) =>
    if rpcd.dev = false ∨ rpcd.did ≠ did then gaveUp rpcd r else serve a

/-- A string that was popped has its first zero byte at its end. -/
def Pop.text : Pop Text := fun msg =>
  msg.pop_str.bind fun (s, msg) => if whole : 0 ∉ s then some (⟨s, whole⟩, msg) else none

def onDevice (call : Call) : List Made := [⟨some rpcd.did, call⟩]

def offDevice (call : Call) : List Made := [⟨none, call⟩]

/-- The error is all there is to answer. -/
def told (calls : List Made) (err : Int32) : Handled := ⟨rpcd, calls, err, r⟩

def pushStrings (a : StringsAnswer) : Msg :=
  let text : Option ShortText → Bytes := fun s => s.elim [] Subtype.val
  ((r.push_str (text a.manufact) fresh).push_str (text a.product) fresh).push_str (text a.serial) fresh

def toldStrings (calls : List Made) (a : StringsAnswer) : Handled :=
  ⟨rpcd, calls, a.ret, if a.ret ≠ 0 then r else pushStrings fresh r a⟩

/-- A frequency or rate of 0 stands for an error. -/
def toldWord (calls : List Made) (n : UInt32) : Handled :=
  if n = 0 then ⟨rpcd, calls, -1, r⟩ else ⟨rpcd, calls, 0, r.push_uint32 n fresh⟩

/-- A buffer of `size` bytes with a count in front; the answer is stored before the count
    is known. -/
def roomFor (size : Nat) (bs : Bytes) : Msg :=
  let grown := (r.realloc (r.off + 4 + size) (some fresh)).getD r
  { grown with fmt := grown.fmt.store (grown.off + 4) bs }

/-- `push_uint32_safe` and `skip_safe`. -/
def countAndSkip (r : Msg) (n : UInt32) : Msg :=
  let counted := r.push_mem_safe (u32 n)
  { counted with off := counted.off + n.toNat }

def toldGains (is_null gain_size : UInt32) : Handled :=
  if is_null ≠ 0 then
    told rpcd r (onDevice rpcd (.get_tuner_gains false)) (behave (.get_tuner_gains false)).ret
  else
    let a : GainsAnswer := behave (.get_tuner_gains true)
    let r := roomFor fresh r gain_size.toNat (gainBytes a.gains)
    ⟨rpcd, onDevice rpcd (.get_tuner_gains true), a.ret, if a.ret ≤ 0 then r else countAndSkip r gain_size⟩

def toldRead (len : UInt32) : Handled :=
  let a : ReadAnswer len.toInt32 := behave (.read_sync len.toInt32)
  let r := roomFor fresh r len.toNat a.data
  ⟨rpcd, onDevice rpcd (.read_sync len.toInt32), a.ret,
    if a.ret ≠ 0 then r else countAndSkip r (UInt32.ofNat a.data.length)⟩

/-- The switch of `handle_query`, without the cases of asynchronous reads. -/
def handle_op (q : Msg) : Op → Handled
  | .get_device_count =>
    ⟨rpcd, offDevice .get_device_count, 0, r.push_uint32 (behave .get_device_count) fresh⟩
  | .get_device_name =>
    withArgs rpcd r q Pop.uint32 fun i =>
      let s : Option Text := behave (.get_device_name i)
      ⟨rpcd, offDevice (.get_device_name i), 0, r.push_str (s.elim [] Subtype.val) fresh⟩
  | .get_device_usb_strings =>
    withArgs rpcd r q Pop.uint32 fun i =>
      toldStrings fresh rpcd r (offDevice (.get_device_usb_strings i true true true))
        (behave (.get_device_usb_strings i true true true))
  | .get_index_by_serial =>
    withArgs rpcd r q Pop.text fun serial =>
      told rpcd r (offDevice (.get_index_by_serial (some serial)))
        (behave (.get_index_by_serial (some serial)))
  | .open =>
    if rpcd.dev then told rpcd r [] 0
    else
      withArgs rpcd r q Pop.uint32 fun did =>
        let err : Int32 := behave (.open did)
        ⟨⟨decide (err = 0), did⟩, offDevice (.open did), err, r⟩
  | .close =>
    withDevice rpcd r q (pure ()) fun _ =>
      ⟨⟨false, rpcd.did⟩, onDevice rpcd .close, behave .close, r⟩
  | .set_xtal_freq =>
    withDevice rpcd r q (do let rtl_freq ← Pop.uint32; let tuner_freq ← Pop.uint32
                            pure (rtl_freq, tuner_freq)) fun (rtl_freq, tuner_freq) =>
      told rpcd r (onDevice rpcd (.set_xtal_freq rtl_freq tuner_freq))
        (behave (.set_xtal_freq rtl_freq tuner_freq))
  | .get_xtal_freq =>
    withDevice rpcd r q (pure ()) fun _ =>
      let a : XtalAnswer := behave (.get_xtal_freq true true)
      ⟨rpcd, onDevice rpcd (.get_xtal_freq true true), a.ret,
        if a.ret ≠ 0 then r
        else (r.push_uint32 (a.rtl_freq.getD 0) fresh).push_uint32 (a.tuner_freq.getD 0) fresh⟩
  | .get_usb_strings =>
    withDevice rpcd r q (pure ()) fun _ =>
      toldStrings fresh rpcd r (onDevice rpcd (.get_usb_strings true true true))
        (behave (.get_usb_strings true true true))
  | .set_center_freq =>
    withDevice rpcd r q Pop.uint32 fun freq =>
      told rpcd r (onDevice rpcd (.set_center_freq freq)) (behave (.set_center_freq freq))
  | .get_center_freq =>
    withDevice rpcd r q (pure ()) fun _ =>
      toldWord fresh rpcd r (onDevice rpcd .get_center_freq) (behave .get_center_freq)
  | .set_freq_correction =>
    withDevice rpcd r q Pop.int32 fun ppm =>
      told rpcd r (onDevice rpcd (.set_freq_correction ppm)) (behave (.set_freq_correction ppm))
  | .get_freq_correction =>
    withDevice rpcd r q (pure ()) fun _ =>
      told rpcd r (onDevice rpcd .get_freq_correction) (behave .get_freq_correction)
  | .get_tuner_type =>
    withDevice rpcd r q (pure ()) fun _ =>
      told rpcd r (onDevice rpcd .get_tuner_type) (behave .get_tuner_type)
  | .get_tuner_gains =>
    withDevice rpcd r q (do let is_null ← Pop.uint32; let gain_size ← Pop.uint32
                            pure (is_null, gain_size)) fun (is_null, gain_size) =>
      toldGains fresh behave rpcd r is_null gain_size
  | .set_tuner_gain =>
    withDevice rpcd r q Pop.int32 fun gain =>
      told rpcd r (onDevice rpcd (.set_tuner_gain gain)) (behave (.set_tuner_gain gain))
  | .get_tuner_gain =>
    withDevice rpcd r q (pure ()) fun _ =>
      told rpcd r (onDevice rpcd .get_tuner_gain) (behave .get_tuner_gain)
  | .set_tuner_if_gain =>
    withDevice rpcd r q (do let stage ← Pop.int32; let gain ← Pop.int32
                            pure (stage, gain)) fun (stage, gain) =>
      told rpcd r (onDevice rpcd (.set_tuner_if_gain stage gain))
        (behave (.set_tuner_if_gain stage gain))
  | .set_tuner_gain_mode =>
    withDevice rpcd r q Pop.int32 fun manual =>
      told rpcd r (onDevice rpcd (.set_tuner_gain_mode manual))
        (behave (.set_tuner_gain_mode manual))
  | .set_get_tuner_bw =>
    withDevice rpcd r q (do let bw ← Pop.uint32; let apply_bw ← Pop.int32
                            pure (bw, apply_bw)) fun (bw, apply_bw) =>
      let a : BandwidthAnswer := behave (.set_and_get_tuner_bandwidth bw apply_bw)
      ⟨rpcd, onDevice rpcd (.set_and_get_tuner_bandwidth bw apply_bw), a.ret,
        if a.ret ≠ 0 then r else r.push_uint32 (a.applied_bw.getD 0) fresh⟩
  | .set_sample_rate =>
    withDevice rpcd r q Pop.uint32 fun rate =>
      told rpcd r (onDevice rpcd (.set_sample_rate rate)) (behave (.set_sample_rate rate))
  | .get_sample_rate =>
    withDevice rpcd r q (pure ()) fun _ =>
      toldWord fresh rpcd r (onDevice rpcd .get_sample_rate) (behave .get_sample_rate)
  | .set_testmode =>
    withDevice rpcd r q Pop.int32 fun on =>
      told rpcd r (onDevice rpcd (.set_testmode on)) (behave (.set_testmode on))
  | .set_agc_mode =>
    withDevice rpcd r q Pop.int32 fun on =>
      told rpcd r (onDevice rpcd (.set_agc_mode on)) (behave (.set_agc_mode on))
  | .set_direct_sampling =>
    withDevice rpcd r q Pop.int32 fun on =>
      told rpcd r (onDevice rpcd (.set_direct_sampling on)) (behave (.set_direct_sampling on))
  | .get_direct_sampling =>
    withDevice rpcd r q (pure ()) fun _ =>
      told rpcd r (onDevice rpcd .get_direct_sampling) (behave .get_direct_sampling)
  | .set_offset_tuning =>
    withDevice rpcd r q Pop.int32 fun on =>
      told rpcd r (onDevice rpcd (.set_offset_tuning on)) (behave (.set_offset_tuning on))
  | .get_offset_tuning =>
    withDevice rpcd r q (pure ()) fun _ =>
      told rpcd r (onDevice rpcd .get_offset_tuning) (behave .get_offset_tuning)
  | .reset_buffer =>
    withDevice rpcd r q (pure ()) fun _ =>
      told rpcd r (onDevice rpcd .reset_buffer) (behave .reset_buffer)
  | .read_sync => withDevice rpcd r q Pop.uint32 fun len => toldRead fresh behave rpcd r len
  | .write_eeprom | .read_eeprom | .wait_async | .read_async | .cancel_async | .event_state
  | .invalid => gaveUp rpcd r

/-- A code that no case has leads to the error -1 alone. -/
def handle_query (reply_msg q : Msg) : Handled :=
  match q.get_op with
  | none => gaveUp rpcd reply_msg.reset
  | some op => handle_op fresh behave rpcd reply_msg.reset q op

end

/-- What stands at `on_error`: the header of the reply, with the operation as it came. -/
def Handled.reply (h : Handled) (q : Msg) : Msg :=
  let sized := h.r.set_size h.r.off
  let named := { sized with fmt := sized.fmt.store 4 [q.fmt 4] }
  (named.set_id (q.fmt 5)).set_err h.err

end Soapy.Rtl
