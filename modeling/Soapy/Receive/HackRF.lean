import Soapy.Lib.RingQueue
import Soapy.Lib.Runs
import Soapy.Lib.SampleLog

/-! # The ring of the HackRF receive stream

The callback puts each transfer into a ring and drops the oldest one when the ring is full. The
reader keeps a buffer that it did not read to its end. The callback, the acquiring and the
releasing of a buffer hold the mutex of the ring. The device streams throughout.
-/

namespace Soapy.Receive.HackRF

open Lib HandleRing

variable {buf_num mtu : Nat} [NeZero buf_num] {α : Type}

/-- In `readStream`: behind the first line, in front of the release of the remainder, of
    `acquireReadBuffer`, of the copy behind it, and of the last release. -/
inductive Place where
  | idle
  | reads (returnedElems : Nat)
  | releases_remainder (returnedElems n : Nat)
  | acquires (returnedElems samp_avail : Nat)
  | copies (returnedElems samp_avail : Nat)
  | releases (returnedElems : Nat)
deriving DecidableEq

/-- `copied` and `returned` are what the last call put into the user's buffer and returned without
    an error. Behind them: the slots with a transfer that was not handed out yet, whether an
    acquired slot was overwritten, whether any other was handed out, what arrived and what was seen
    of it. -/
structure State (buf_num : Nat) (α : Type) where
  buf : Fin buf_num → Block α
  buf_head : Fin buf_num
  buf_tail : Fin buf_num
  buf_count : Nat
  overflow : Bool
  remainderHandle : Option (Fin buf_num)
  remainderSamps : Nat
  remainderOffset : Nat
  place : Place
  copied : List (Block α)
  returned : Option Nat
  fresh : Fin buf_num → Bool
  overwritten : Bool
  stale : Bool
  arrived : List α
  log : List (Seen α)

/-- Behind `activateStream`. -/
def State.start : State buf_num α :=
  { buf := fun _ => ⟨0, []⟩
    buf_head := 0
    buf_tail := 0
    buf_count := 0
    overflow := false
    remainderHandle := none
    remainderSamps := 0
    remainderOffset := 0
    place := .idle
    copied := []
    returned := none
    fresh := fun _ => false
    overwritten := false
    stale := false
    arrived := []
    log := [] }

/-- The copy into the ring, in front of the check of the count. -/
def State.memcpy (s : State buf_num α) (data : List α) : State buf_num α :=
  { s with
    buf_tail := slot s.buf_head s.buf_count
    buf := Function.update s.buf (slot s.buf_head s.buf_count) ⟨s.arrived.length, data⟩
    fresh := Function.update s.fresh (slot s.buf_head s.buf_count) true
    overwritten := s.overwritten || s.remainderHandle = some (slot s.buf_head s.buf_count)
    arrived := s.arrived ++ data }

def State.hackrf_rx_callback (s : State buf_num α) (data : List α) : State buf_num α :=
  if s.buf_count = buf_num then
    { s.memcpy data with overflow := true, buf_head := slot s.buf_head 1 }
  else { s.memcpy data with buf_count := s.buf_count + 1 }

/-- `releaseReadBuffer`, and the lines behind it. -/
def State.releaseReadBuffer (s : State buf_num α) : State buf_num α :=
  { s with buf_count := s.buf_count - 1, remainderHandle := none, remainderOffset := 0 }

/-- `readStream` returns a number of samples. -/
def State.returns (s : State buf_num α) (ret : Nat) : State buf_num α :=
  { s with place := .idle, returned := some ret, log := s.log ++ s.copied.map .samples }

def State.fails (s : State buf_num α) : State buf_num α :=
  { s with place := .idle, returned := none }

/-- `readbuf`, and the lines behind it. -/
def State.readbuf (s : State buf_num α) (handle : Fin buf_num) (offset n : Nat) : State buf_num α :=
  { s with
    copied := s.copied ++ [((s.buf handle).drop offset).take n]
    remainderOffset := s.remainderOffset + n
    remainderSamps := s.remainderSamps - n }

def State.remainder_read (s : State buf_num α) (returnedElems n : Nat) : State buf_num α :=
  if n = returnedElems then s.returns returnedElems
  else { s with place := .acquires returnedElems (if n < returnedElems then n else 0) }

inductive Act (α : Type) where
  | arrive (data : List α)
  | readStream (numElems : Nat)
  | read_remainder
  | no_remainder
  | release_remainder
  | timeout
  | return_overflow
  | acquire
  | copy
  | release

/-- `mtu` is what `getStreamMTU` returns. Samples are passed on one by one, so copying them
    stands for their conversion, too. -/
inductive Step (mtu : Nat) : State buf_num α → Act α → State buf_num α → Prop where
  | arrive {s data} : data.length = mtu → Step mtu s (.arrive data) (s.hackrf_rx_callback data)
  | readStream {s numElems} : s.place = .idle →
      Step mtu s (.readStream numElems)
        { s with place := .reads (min numElems mtu), copied := [] }
  | read_remainder {s returnedElems handle} : s.place = .reads returnedElems →
      s.remainderHandle = some handle →
      Step mtu s .read_remainder
        (if s.remainderSamps - min s.remainderSamps returnedElems = 0 then
          { s.readbuf handle s.remainderOffset (min s.remainderSamps returnedElems) with
            place := .releases_remainder returnedElems (min s.remainderSamps returnedElems) }
        else
          (s.readbuf handle s.remainderOffset (min s.remainderSamps returnedElems)).remainder_read
            returnedElems (min s.remainderSamps returnedElems))
  | no_remainder {s returnedElems} : s.place = .reads returnedElems → s.remainderHandle = none →
      Step mtu s .no_remainder { s with place := .acquires returnedElems 0 }
  | release_remainder {s returnedElems n} : s.place = .releases_remainder returnedElems n →
      Step mtu s .release_remainder (s.releaseReadBuffer.remainder_read returnedElems n)
  | timeout {s returnedElems samp_avail} : s.place = .acquires returnedElems samp_avail →
      s.buf_count = 0 →
      Step mtu s .timeout (if 0 < samp_avail then s.returns samp_avail else s.fails)
  | return_overflow {s returnedElems samp_avail} : s.place = .acquires returnedElems samp_avail →
      s.buf_count ≠ 0 → s.overflow = true →
      Step mtu s .return_overflow
        { s.fails with overflow := false, log := s.log ++ [.gap] }
  | acquire {s returnedElems samp_avail} : s.place = .acquires returnedElems samp_avail →
      s.buf_count ≠ 0 → s.overflow = false →
      Step mtu s .acquire
        { s with
          place := .copies returnedElems samp_avail
          remainderHandle := some s.buf_head
          remainderSamps := mtu
          buf_head := slot s.buf_head 1
          fresh := Function.update s.fresh s.buf_head false
          stale := s.stale || !s.fresh s.buf_head }
  | copy {s returnedElems samp_avail handle} : s.place = .copies returnedElems samp_avail →
      s.remainderHandle = some handle →
      Step mtu s .copy
        (if s.remainderSamps - min (returnedElems - samp_avail) s.remainderSamps = 0 then
          { s.readbuf handle 0 (min (returnedElems - samp_avail) s.remainderSamps) with
            place := .releases returnedElems }
        else
          (s.readbuf handle 0 (min (returnedElems - samp_avail) s.remainderSamps)).returns
            returnedElems)
  | release {s returnedElems} : s.place = .releases returnedElems →
      Step mtu s .release (s.releaseReadBuffer.returns returnedElems)

/-- No transfer arrives while a buffer is acquired, and the ring does not overflow behind the
    release of a remainder whose samples wait for more. -/
def Meets (s : State buf_num α) : Act α → Prop
  | .arrive _ => s.remainderHandle = none ∧
      ∀ returnedElems samp_avail, s.place = .acquires returnedElems samp_avail → 0 < samp_avail →
        s.buf_count ≠ buf_num
  | _ => True

end Soapy.Receive.HackRF
