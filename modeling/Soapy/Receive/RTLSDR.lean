import Soapy.Lib.RingQueue
import Soapy.Lib.Runs
import Soapy.Lib.SampleLog

/-! # The ring of the RTL-SDR stream

The callback fills the buffers of a ring, one reader empties them. The callback takes a
buffer in three steps and the reader its in many, with only the count and the flags shared.
Of every buffer it is known which samples it holds, counted from the first that arrived.
-/

namespace Soapy.Receive.RTLSDR

open Lib HandleRing

variable {n : Nat} [NeZero n] {α : Type}

/-- Where the callback is: `stores` behind the check of the count, `counts` behind the step of
    the tail. -/
inductive Callback (α : Type) where
  | idle
  | stores (b : Block α)
  | counts

/-- In `acquireReadBuffer`: its first line, the two lines behind the drain for a reset, the check of
    the overflow, the line behind the drain for it, and the wait. `copies` is behind it, `releases`
    in front of the release. -/
inductive Place where
  | idle
  | reads (numElems : Nat)
  | acquires (numElems : Nat)
  | drained (numElems : Nat)
  | unset (numElems : Nat)
  | checks (numElems : Nat)
  | overflowed
  | waits (numElems : Nat)
  | copies (numElems : Nat)
  | releases
deriving DecidableEq

/-- The last two fields are what arrived, with the samples that were dropped, and what the
    reader saw of it. -/
structure State (n : Nat) (α : Type) where
  buffs : Fin n → Block α
  buf_head : Fin n
  buf_tail : Fin n
  buf_count : Nat
  overflowEvent : Bool
  resetBuffer : Bool
  bufferedElems : Nat
  currentHandle : Fin n
  currentBuff : Nat
  joinable : Bool
  callback : Callback α
  place : Place
  arrived : List α
  log : List (Seen α)

/-- Behind `setupStream`. -/
def State.start : State n α :=
  { buffs := fun _ => ⟨0, []⟩
    buf_head := 0
    buf_tail := 0
    buf_count := 0
    overflowEvent := false
    resetBuffer := false
    bufferedElems := 0
    currentHandle := 0
    currentBuff := 0
    joinable := false
    callback := .idle
    place := .idle
    arrived := []
    log := [] }

inductive Act (α : Type) where
  | arrive (data : List α)
  | store
  | count
  | activateStream
  | deactivateStream
  | request_reset
  | readStream (numElems : Nat)
  | drop_remainder
  | keep_remainder
  | drain
  | no_reset
  | unset_reset
  | unset_overflow
  | drain_overflow
  | no_overflow
  | return_overflow
  | timeout
  | acquire
  | copy
  | release

/-- Samples are passed on one by one, so copying them stands for their conversion, too. -/
inductive Step : State n α → Act α → State n α → Prop where
  /-- The callback gets samples. A full ring drops them. -/
  | arrive {s data} : s.callback = .idle → s.joinable = true →
      Step s (.arrive data)
        (if s.buf_count = n then { s with overflowEvent := true, arrived := s.arrived ++ data }
        else
          { s with
            callback := .stores ⟨s.arrived.length, data⟩
            arrived := s.arrived ++ data })
  | store {s b} : s.callback = .stores b →
      Step s .store
        { s with
          buffs := Function.update s.buffs s.buf_tail b
          buf_tail := slot s.buf_tail 1
          callback := .counts }
  | count {s} : s.callback = .counts →
      Step s .count { s with buf_count := s.buf_count + 1, callback := .idle }
  | activateStream {s} : s.place = .idle →
      Step s .activateStream { s with resetBuffer := true, bufferedElems := 0, joinable := true }
  | deactivateStream {s} : s.place = .idle → s.callback = .idle →
      Step s .deactivateStream { s with joinable := false }
  | request_reset {s} : Step s .request_reset { s with resetBuffer := true }
  | readStream {s numElems} : s.place = .idle →
      Step s (.readStream numElems) { s with place := .reads numElems }
  | drop_remainder {s numElems} : s.place = .reads numElems → s.resetBuffer = true →
      s.bufferedElems ≠ 0 →
      Step s .drop_remainder
        { s with
          place := .acquires numElems
          bufferedElems := 0
          buf_count := s.buf_count - 1
          log := s.log ++ [.gap] }
  | keep_remainder {s numElems} : s.place = .reads numElems →
      s.resetBuffer = false ∨ s.bufferedElems = 0 →
      Step s .keep_remainder
        { s with place := if s.bufferedElems = 0 then .acquires numElems else .copies numElems }
  | drain {s numElems} : s.place = .acquires numElems → s.resetBuffer = true →
      Step s .drain
        { s with
          place := .drained numElems
          buf_head := slot s.buf_head s.buf_count
          buf_count := 0
          log := s.log ++ [.gap] }
  | no_reset {s numElems} : s.place = .acquires numElems → s.resetBuffer = false →
      Step s .no_reset { s with place := .checks numElems }
  | unset_reset {s numElems} : s.place = .drained numElems →
      Step s .unset_reset { s with place := .unset numElems, resetBuffer := false }
  | unset_overflow {s numElems} : s.place = .unset numElems →
      Step s .unset_overflow { s with place := .checks numElems, overflowEvent := false }
  | drain_overflow {s numElems} : s.place = .checks numElems → s.overflowEvent = true →
      Step s .drain_overflow
        { s with
          place := .overflowed
          buf_head := slot s.buf_head s.buf_count
          buf_count := 0 }
  | no_overflow {s numElems} : s.place = .checks numElems → s.overflowEvent = false →
      Step s .no_overflow { s with place := .waits numElems }
  | return_overflow {s} : s.place = .overflowed →
      Step s .return_overflow
        { s with place := .idle, overflowEvent := false, log := s.log ++ [.gap] }
  | timeout {s numElems} : s.place = .waits numElems → s.buf_count = 0 →
      Step s .timeout { s with place := .idle }
  | acquire {s numElems} : s.place = .waits numElems → s.buf_count ≠ 0 →
      Step s .acquire
        { s with
          place := .copies numElems
          currentHandle := s.buf_head
          currentBuff := 0
          buf_head := slot s.buf_head 1
          bufferedElems := (s.buffs s.buf_head).data.length }
  | copy {s numElems} : s.place = .copies numElems →
      Step s .copy
        { s with
          place := if s.bufferedElems - min s.bufferedElems numElems ≠ 0 then .idle else .releases
          bufferedElems := s.bufferedElems - min s.bufferedElems numElems
          currentBuff := s.currentBuff + min s.bufferedElems numElems
          log := s.log ++ [.samples
            (((s.buffs s.currentHandle).drop s.currentBuff).take (min s.bufferedElems numElems))] }
  | release {s} : s.place = .releases →
      Step s .release { s with place := .idle, buf_count := s.buf_count - 1 }

def Place.Draining : Place → Prop
  | .drained _ | .unset _ | .overflowed => True
  | _ => False

/-- No stream is activated while a buffer is partly read, and the ring does not overflow between a
    drain and the line that takes the overflow back. -/
def Meets (s : State n α) : Act α → Prop
  | .activateStream => s.bufferedElems = 0
  | .arrive _ => s.place.Draining → s.buf_count ≠ n
  | _ => True

end Soapy.Receive.RTLSDR
