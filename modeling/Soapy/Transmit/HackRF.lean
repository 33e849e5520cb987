import Soapy.Lib.HandleRing
import Soapy.Lib.Runs

/-! # The ring of the HackRF transmit stream

The writer fills buffers and puts them into a ring, the callback hands them to the radio. A buffer
is put there only when it is full. The last buffer of a burst is therefore made shorter: by what is
left of the burst behind the transfers that were already handed on. The device transmits throughout.
-/

namespace Soapy.Transmit.HackRF

open Lib HandleRing

/-- `BUF_LEN / BYTES_PER_SAMPLE`. -/
def MTU : Nat := 262144 / 2

variable {buf_num mtu : Nat} [NeZero buf_num] {α : Type} [Zero α]

/-- In `writeStream`: behind the first line, in front of the release of the remainder, of
    `acquireWriteBuffer`, of the copy behind it, and of the last release. -/
inductive Place where
  | idle
  | writes (returnedElems : Nat)
  | releases_remainder (returnedElems n : Nat)
  | acquires (returnedElems samp_avail : Nat)
  | copies (returnedElems samp_avail : Nat)
  | releases (returnedElems : Nat)
deriving DecidableEq

/-- Behind the place of the writer it is kept how many samples `writeStream` has taken, which buffers
    the radio got, and whether the callback has stopped it. -/
structure State (buf_num mtu : Nat) (α : Type) where
  buf : Fin buf_num → Fin mtu → α
  buf_head : Fin buf_num
  buf_tail : Fin buf_num
  buf_count : Nat
  underflow : Bool
  remainderHandle : Option (Fin buf_num)
  remainderSamps : Nat
  remainderOffset : Nat
  burst_end : Bool
  burst_samps : Int
  place : Place
  supplied : Nat
  transfers : List (Fin mtu → α)
  stopped : Bool

/-- What an `int32_t` holds. -/
def int32 (v : Int) : Int := v.bmod (2 ^ 32)

/-- With `END_BURST`, from receive mode. -/
def State.activateStream (s : State buf_num mtu α) (numElems : Nat) : State buf_num mtu α :=
  { s with
    buf_head := 0
    buf_tail := 0
    burst_end := true
    burst_samps := int32 numElems
    supplied := 0
    transfers := []
    stopped := false }

/-- The callback takes the oldest buffer. -/
def State.memcpy (s : State buf_num mtu α) : State buf_num mtu α :=
  { s with
    transfers := s.transfers ++ [s.buf s.buf_tail]
    buf_tail := slot s.buf_tail 1
    buf_count := s.buf_count - 1 }

/-- A transfer has the length of a buffer. Without a buffer it is all zero. -/
def State.hackrf_tx_callback (s : State buf_num mtu α) : State buf_num mtu α :=
  if s.buf_count = 0 then { s with underflow := true }
  else if s.burst_end then
    if int32 (s.burst_samps - mtu) < 0 then
      { s.memcpy with burst_end := false, burst_samps := 0, stopped := true }
    else { s.memcpy with burst_samps := int32 (s.burst_samps - mtu) }
  else s.memcpy

/-- What `acquireWriteBuffer` returns, and what it leaves. It clears as many bytes as a buffer has
    samples, of two bytes each. -/
def State.acquireWriteBuffer (s : State buf_num mtu α) : Int × State buf_num mtu α :=
  if s.burst_end ∧ int32 (s.burst_samps - int32 mtu) < 0 then
    (s.burst_samps,
      { s with
        buf_head := slot s.buf_head 1
        buf := Function.update s.buf s.buf_head fun i =>
          if i.val < mtu / 2 then 0 else s.buf s.buf_head i })
  else (mtu, { s with buf_head := slot s.buf_head 1 })

/-- `writebuf` of `n` samples from `src` on, and the lines behind it. -/
def State.writebuf (s : State buf_num mtu α) (samples : List α) (handle : Fin buf_num)
    (offset src n : Nat) : State buf_num mtu α :=
  { s with
    buf := Function.update s.buf handle fun i =>
      if offset ≤ i.val ∧ i.val < offset + n then samples.getD (src + (i.val - offset)) 0
      else s.buf handle i
    remainderSamps := s.remainderSamps - n
    remainderOffset := s.remainderOffset + n }

/-- `releaseWriteBuffer`, and the lines behind it. -/
def State.releaseWriteBuffer (s : State buf_num mtu α) : State buf_num mtu α :=
  { s with buf_count := s.buf_count + 1, remainderHandle := none, remainderOffset := 0 }

/-- `writeStream` returns a number of samples. -/
def State.returns (s : State buf_num mtu α) (ret : Nat) : State buf_num mtu α :=
  { s with place := .idle, supplied := s.supplied + ret }

def State.fails (s : State buf_num mtu α) : State buf_num mtu α := { s with place := .idle }

def State.remainder_written (s : State buf_num mtu α) (returnedElems n : Nat) :
    State buf_num mtu α :=
  if n = returnedElems then s.returns returnedElems
  else { s with place := .acquires returnedElems (if n < returnedElems then n else 0) }

inductive Act where
  | callback
  | writeStream (numElems : Nat)
  | write_remainder
  | no_remainder
  | release_remainder
  | timeout
  | acquire
  | copy
  | release

/-- The burst of `samples`. Each call gets samples from the first on that was not taken yet. -/
inductive Step (samples : List α) : State buf_num mtu α → Act → State buf_num mtu α → Prop where
  | callback {s} : Step samples s .callback s.hackrf_tx_callback
  | writeStream {s numElems} : s.place = .idle → s.supplied + numElems ≤ samples.length →
      Step samples s (.writeStream numElems) { s with place := .writes (min numElems mtu) }
  | write_remainder {s returnedElems handle} : s.place = .writes returnedElems →
      s.remainderHandle = some handle →
      Step samples s .write_remainder
        (if s.remainderSamps - min s.remainderSamps returnedElems = 0 then
          { s.writebuf samples handle s.remainderOffset s.supplied
              (min s.remainderSamps returnedElems) with
            place := .releases_remainder returnedElems (min s.remainderSamps returnedElems) }
        else
          (s.writebuf samples handle s.remainderOffset s.supplied
            (min s.remainderSamps returnedElems)).remainder_written returnedElems
              (min s.remainderSamps returnedElems))
  | no_remainder {s returnedElems} : s.place = .writes returnedElems → s.remainderHandle = none →
      Step samples s .no_remainder { s with place := .acquires returnedElems 0 }
  | release_remainder {s returnedElems n} : s.place = .releases_remainder returnedElems n →
      Step samples s .release_remainder (s.releaseWriteBuffer.remainder_written returnedElems n)
  | timeout {s returnedElems samp_avail} : s.place = .acquires returnedElems samp_avail →
      s.buf_count = buf_num →
      Step samples s .timeout (if 0 < samp_avail then s.returns samp_avail else s.fails)
  | acquire {s returnedElems samp_avail} : s.place = .acquires returnedElems samp_avail →
      s.buf_count ≠ buf_num →
      Step samples s .acquire
        (if s.acquireWriteBuffer.1 < 0 then s.acquireWriteBuffer.2.fails
        else
          { s.acquireWriteBuffer.2 with
            place := .copies returnedElems samp_avail
            remainderHandle := some s.buf_head
            remainderSamps := s.acquireWriteBuffer.1.toNat })
  | copy {s returnedElems samp_avail handle} : s.place = .copies returnedElems samp_avail →
      s.remainderHandle = some handle →
      Step samples s .copy
        (if s.remainderSamps - min (returnedElems - samp_avail) s.remainderSamps = 0 then
          { s.writebuf samples handle 0 (s.supplied + samp_avail)
              (min (returnedElems - samp_avail) s.remainderSamps) with
            place := .releases returnedElems }
        else
          (s.writebuf samples handle 0 (s.supplied + samp_avail)
            (min (returnedElems - samp_avail) s.remainderSamps)).returns returnedElems)
  | release {s returnedElems} : s.place = .releases returnedElems →
      Step samples s .release (s.releaseWriteBuffer.returns returnedElems)

def State.sent (s : State buf_num mtu α) : List α := s.transfers.flatMap List.ofFn

/-- The burst, filled up with zeros to whole transfers. -/
def padded (mtu : Nat) (samples : List α) : List α :=
  samples ++ List.replicate ((mtu - samples.length % mtu) % mtu) 0

/-- The radio gets the burst and then nothing more. -/
structure Transmitted (samples : List α) (s : State buf_num mtu α) : Prop where
  so_far : s.sent <+: padded mtu samples
  stops : s.stopped = true ↔ s.sent = padded mtu samples
  ends : s.stopped = true → s.burst_end = false
  all : s.place = .idle → s.supplied = samples.length → s.buf_count = 0 → s.stopped = true

/-- How a burst must begin: nothing is left of an earlier transmission, and the burst is no
    multiple of the MTU. -/
structure Fresh (samples : List α) (s : State buf_num mtu α) : Prop where
  idle : s.place = .idle
  none_waits : s.buf_count = 0
  no_remainder : s.remainderHandle = none ∧ s.remainderOffset = 0
  part : samples.length % mtu ≠ 0
  short : samples.length < 2 ^ 31

/-- When the last buffer is acquired, the radio has got all the others, and the bytes of it are
    zero that are neither cleared nor written. -/
def Meets (samples : List α) (s : State buf_num mtu α) : Act → Prop
  | .acquire => ∀ returnedElems samp_avail, s.place = .acquires returnedElems samp_avail →
      s.supplied + samp_avail < samples.length →
      samples.length < s.supplied + samp_avail + mtu →
        s.transfers.length = samples.length / mtu ∧
          ∀ i : Fin mtu, mtu / 2 ≤ i.val → samples.length % mtu ≤ i.val → s.buf s.buf_head i = 0
  | _ => True

end Soapy.Transmit.HackRF
