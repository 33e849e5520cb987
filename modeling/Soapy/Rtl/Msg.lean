import Soapy.Lib.Memory

/-! # Messages of the rtlsdr rpc

A message is one allocated buffer that is used again for every message that follows.
It grows when a longer message needs it and never shrinks, and a longer buffer keeps
the bytes up to the offset only.
-/

namespace Soapy.Rtl

open Lib

/-- `offsetof(rtlsdr_rpc_fmt_t, data)`: four bytes of size, one of operation, one of id
    and four of error come first. -/
def fmt_size : Nat := 10

/-- `rtlsdr_rpc_msg_t`. `size` is what is allocated, not what was declared; the bytes
    of `fmt` from `size` on belong to others. -/
structure Msg where
  off : Nat
  size : Nat
  fmt : Memory

namespace Msg

/-- `rtlsdr_rpc_msg_init` with the data size of every caller, 0, which stands for 64. -/
def init (fmt : Memory) : Msg := ⟨fmt_size, fmt_size + 64, fmt⟩

def reset (msg : Msg) : Msg := { msg with off := fmt_size }

def get_size (msg : Msg) : Nat := ofLE (msg.fmt.load 0 4)

def get_id (msg : Msg) : Nat := (msg.fmt 5).toNat

def set_size (msg : Msg) (size : Nat) : Msg := { msg with fmt := msg.fmt.store 0 (toLE 4 size) }

/-- `none` from `malloc` is a failed allocation; otherwise the new buffer holds
    anything behind the bytes that are copied. -/
def realloc (msg : Msg) (size : Nat) (malloc : Option Memory) : Option Msg :=
  if size ≤ msg.size then some msg
  else malloc.map (fun new_fmt =>
    { msg with fmt := new_fmt.store 0 (msg.fmt.load 0 msg.off), size := size })

/-- `check_size` succeeds. -/
abbrev CheckSize (msg : Msg) (size : Nat) : Prop := msg.off + size ≤ msg.size

/-- Also `rtlsdr_rpc_msg_pop_int32`, which reads the same bytes as a signed number. -/
def pop_uint32 (msg : Msg) : Option (Nat × Msg) :=
  if msg.CheckSize 4 then
    some (ofLE (msg.fmt.load msg.off 4), { msg with off := msg.off + 4 })
  else none

/-- The offset moves behind the first zero byte. -/
def pop_str (msg : Msg) : Option (Bytes × Msg) :=
  ((List.range (msg.size - msg.off)).find? (fun n => msg.fmt (msg.off + n) = 0)).map
    (fun n => (msg.fmt.load msg.off n, { msg with off := msg.off + n + 1 }))

/-- The offset stays behind the count when the bytes are too many. -/
def pop_buf (msg : Msg) : Option Bytes × Msg :=
  match msg.pop_uint32 with
  | none => (none, msg)
  | some (x, msg) =>
    if msg.off + x ≤ msg.size then
      (some (msg.fmt.load msg.off x), { msg with off := msg.off + x })
    else (none, msg)

end Msg

end Soapy.Rtl
