import Mathlib

/-! # The 16 bit converter of libairspy

Real samples become I and Q: the mean is removed, the spectrum is moved by a quarter of the rate, the
even samples go through the even taps of a half band filter and the odd ones through a delay line.
An access outside of a buffer is `none`.
-/

namespace Soapy.Receive.IqConverter

structure Dc where
  old_x : Int16
  old_y : Int16
  old_e : Int32

/-- `iqconverter_int16_t`. -/
structure Converter extends Dc where
  len : Nat
  fir_index : Nat
  delay_index : Nat
  fir_kernel : List Int32
  fir_queue : List Int32
  delay_line : List Int16

/-- The first elements of a memory are cleared, `keep` is left of the one after them. -/
def clear {α : Type} (zero : α) (n : Nat) (keep : α → α) (memory : List α) : List α :=
  memory.mapIdx (fun k v => if k < n then zero else if k = n then keep v else v)

def store {α : Type} (memory : List α) (i : Nat) (v : α) : Option (List α) :=
  if i < memory.length then some (memory.set i v) else none

def remove_dc (c : Dc) : List Int16 → Dc × List Int16
  | [] => (c, [])
  | x :: rest =>
    let w := x - c.old_x
    let u := c.old_e + c.old_y.toInt32 * 32100
    let s := (u >>> 15).toInt16
    let y := w + s
    let (c, rest) := remove_dc ⟨x, y, u - (s.toInt32 <<< 15)⟩ rest
    (c, y :: rest)

/-- The loop of `translate_fs_4`, which goes by four samples. -/
def turned : List Int16 → Option (List Int16)
  | [] => some []
  | s0 :: s1 :: s2 :: s3 :: rest =>
    (turned rest).map ([-s0, (-s1.toInt32 >>> 1).toInt16, s2, s3 >>> 1] ++ ·)
  | _ => none

def taps (kernel : List Int16) : Nat := kernel.length / 2 + 1

def evenTap (kernel : List Int16) (j : Nat) : Int32 := (kernel.getD (j * 2) 0).toInt32

/-- The sample `j` before the `n`-th, and silence before the first. -/
def past (e : Nat → Int16) (n j : Nat) : Int32 := if j ≤ n then (e (n - j)).toInt32 else 0

def convolution (kernel : List Int16) (e : Nat → Int16) (n : Nat) : Int16 :=
  (((List.range (taps kernel)).foldl (fun acc j => acc + evenTap kernel j * past e n j) 0) >>>
    15).toInt16

/-- What `line` had at first comes out before the stream does. -/
def delayed (line : List Int16) (o : Nat → Int16) (n : Nat) : Int16 :=
  if n < line.length then line.getD n 0 else o (n - line.length)

/-- The output at `i` for the samples `w` behind the sign and shift pattern. -/
def output (kernel line : List Int16) (w : Nat → Int16) (i : Nat) : Int16 :=
  if i % 2 = 0 then convolution kernel (fun m => w (2 * m)) (i / 2)
  else delayed line (fun m => w (2 * m + 1)) (i / 2)

/-- The stream without its mean, behind the sign and shift pattern. -/
def shaped (stream : List Int16) : List Int16 :=
  (turned (remove_dc ⟨0, 0, 0⟩ stream).2).getD []

def converted (kernel line stream : List Int16) : List Int16 :=
  (List.range stream.length).map (output kernel line (fun i => (shaped stream).getD i 0))

/-- The samples before the `n`-th stand behind the index. -/
structure FirInv (kernel : List Int16) (e : Nat → Int16) (n : Nat) (s : List Int32 × Nat) : Prop where
  queue : s.1.length = 16 * taps kernel
  index : s.2 ≤ 15 * taps kernel
  history : ∀ j, 1 ≤ j → j < taps kernel → s.1[s.2 + j]? = some (past e n j)

/-- Where the `i`-th next sample stands. -/
def place (index half i : Nat) : Nat := if index + i < half then index + i else index + i - half

structure DelayInv (line : List Int16) (o : Nat → Int16) (n : Nat) (s : List Int16 × Nat) : Prop where
  length : s.1.length = line.length
  index : s.2 < line.length
  ring : ∀ i < line.length, s.1[place s.2 line.length i]? = some (delayed line o (n + i))

/-- The converter has seen `2 * n` samples since its delay line was `line`. -/
structure Ready (kernel line : List Int16) (w : Nat → Int16) (n : Nat) (c : Converter) : Prop where
  half : line.length = taps kernel / 2
  len : c.len = taps kernel
  even : c.fir_kernel = (List.range (taps kernel)).map (evenTap kernel)
  fir : FirInv kernel (fun m => w (2 * m)) n (c.fir_queue, c.fir_index)
  delay : DelayInv line (fun m => w (2 * m + 1)) n (c.delay_line, c.delay_index)

section

variable {kernel line : List Int16} {w : Nat → Int16} {n : Nat} {c : Converter}

structure Shaped (kernel : List Int16) (c : Converter) : Prop where
  len : c.len = taps kernel
  even : c.fir_kernel = (List.range (taps kernel)).map (evenTap kernel)
  queue : c.fir_queue.length = 16 * taps kernel
  line : c.delay_line.length = taps kernel / 2

theorem Ready.shaped (ready : Ready kernel line w n c) : Shaped kernel c :=
  ⟨ready.len, ready.even, ready.fir.queue, ready.delay.length.trans ready.half⟩

end

end Soapy.Receive.IqConverter
