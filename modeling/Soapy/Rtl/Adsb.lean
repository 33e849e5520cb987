import Soapy.Lib.Bytes

/-! # The ADS-B demodulator

`manchester` overwrites the magnitudes with bits and marks, `messages` puts the bits together. Both
tell bits, marks and magnitudes apart by their values. An access outside the buffer is `none`.
-/

namespace Soapy.Rtl.Adsb

open Lib

def abs8 (x : Nat) : Nat := if 127 ≤ x then x - 127 else 127 - x

def squares (x : UInt8) : UInt16 := UInt16.ofNat (abs8 x.toNat * abs8 x.toNat)

def magnitute : Bytes → List UInt16
  | i :: q :: buf => (squares i + squares q) :: magnitute buf
  | _ => []

def MESSAGEGO : UInt16 := 253

def OVERWRITE : UInt16 := 254

def BADSAMPLE : UInt16 := 255

def preamble_len : Nat := 16

def long_frame : Nat := 112

def short_frame : Nat := 56

/-- Who wrote a cell last: nobody, the bit loop, or `manchester` for a mark. A bit is kept with the
    position behind its preamble, if the loop ran for one. -/
inductive Origin where
  | sample
  | bit (preamble : Option Nat)
  | mark
deriving DecidableEq

structure Cell where
  value : UInt16
  origin : Origin
deriving DecidableEq

/-- What `magnitute` leaves. -/
def samples (buf : List UInt16) : List Cell := buf.map fun v => ⟨v, .sample⟩

def mark (v : UInt16) : Cell := ⟨v, .mark⟩

/-- C's value of a comparison. -/
def flag (b : Bool) : UInt16 := if b then 1 else 0

def single_manchester (quality : Int) (a b c d : UInt16) : UInt16 :=
  let bit_p := decide (a > b)
  let bit := decide (c > d)
  if quality = 0 then flag bit
  else if quality = 5 then
    if bit && bit_p && decide (b > c) then BADSAMPLE
    else if !bit && !bit_p && decide (b < c) then BADSAMPLE
    else flag bit
  else if quality = 10 then
    if bit && bit_p && decide (c > b) then 1
    else if bit && !bit_p && decide (d < b) then 1
    else if !bit && bit_p && decide (d > b) then 0
    else if !bit && !bit_p && decide (c < b) then 0
    else BADSAMPLE
  else if bit && bit_p && decide (c > b) && decide (d < a) then 1
  else if bit && !bit_p && decide (c > a) && decide (d < b) then 1
  else if !bit && bit_p && decide (c < a) && decide (d > b) then 0
  else if !bit && !bit_p && decide (c < b) && decide (d > a) then 0
  else BADSAMPLE

/-- The loop of `preamble` over the rest of its indices. -/
def preambleFrom (buf : List Cell) (i : Nat) (low high : UInt16) : List Nat → Option Bool
  | [] => some true
  | i2 :: rest => do
    let c ← buf[i + i2]?
    let high := if i2 = 0 ∨ i2 = 2 ∨ i2 = 7 ∨ i2 = 9 then c.value else high
    let low := if i2 = 0 ∨ i2 = 2 ∨ i2 = 7 ∨ i2 = 9 then low else c.value
    if high ≤ low then some false else preambleFrom buf i low high rest

def preamble (buf : List Cell) (i : Nat) : Option Bool :=
  preambleFrom buf i 0 65535 (List.range preamble_len)

def write (buf : List Cell) (i : Nat) (c : Cell) : Option (List Cell) :=
  if i < buf.length then some (buf.set i c) else none

/-- The variables of `manchester`, and the preamble for which the bit loop runs. -/
@[ext]
structure Demod where
  buf : List Cell
  a : UInt16
  b : UInt16
  i : Nat
  heard : Option Nat

/-- `for (i2=0; i2<preamble_len; i2++) buf[i+i2] = MESSAGEGO`. -/
def messagego (i : Nat) : List Nat → List Cell → Option (List Cell)
  | [], buf => some buf
  | i2 :: rest, buf => do messagego i rest (← write buf (i + i2) (mark MESSAGEGO))

def searchFrom : Nat → Demod → Option Demod
  | 0, s => some { s with heard := none }
  | n + 1, s => do
    if ← preamble s.buf s.i then
      let a ← s.buf[s.i]?
      let b ← s.buf[s.i + 1]?
      let buf ← messagego s.i (List.range preamble_len) s.buf
      some ⟨buf, a.value, b.value, s.i + preamble_len, some (s.i + preamble_len)⟩
    else searchFrom n { s with i := s.i + 1 }

/-- `for ( ; i < (len - preamble_len); i++)`. -/
def search (len : Nat) (s : Demod) : Option Demod := searchFrom (len - preamble_len - s.i) s

/-- `buf[i] = buf[i+1] = OVERWRITE; buf[i2] = bit`. -/
def Demod.put (s : Demod) (i2 : Nat) (bit : UInt16) : Option (List Cell) := do
  let buf ← write s.buf (s.i + 1) (mark OVERWRITE)
  let buf ← write buf s.i (mark OVERWRITE)
  write buf i2 ⟨bit, .bit s.heard⟩

def markBits (quality : Int) (allowed_errors len : Nat) (s : Demod) (i2 errors : Nat) :
    Option Demod :=
  if _h : s.i < len - 1 then do
    let c ← s.buf[s.i]?
    let d ← s.buf[s.i + 1]?
    let bit := single_manchester quality s.a s.b c.value d.value
    if bit = BADSAMPLE then
      if allowed_errors < errors + 1 then
        let buf ← write s.buf i2 (mark BADSAMPLE)
        some { s with buf := buf, a := c.value, b := d.value }
      else
        let buf ← s.put i2 (flag (decide (c.value > d.value)))
        markBits quality allowed_errors len { s with buf := buf, a := 0, b := 65535, i := s.i + 2 }
          (i2 + 1) (errors + 1)
    else
      let buf ← s.put i2 bit
      markBits quality allowed_errors len
        { s with buf := buf, a := c.value, b := d.value, i := s.i + 2 } (i2 + 1) errors
  else some s
termination_by len - s.i
decreasing_by all_goals omega

/-- The body of the outer loop. -/
def turn (quality : Int) (allowed_errors len : Nat) (s : Demod) : Option Demod := do
  let s ← search len s
  markBits quality allowed_errors len s s.i 0

inductive Failure where
  | out_of_bounds
  | out_of_fuel
deriving DecidableEq

/-- The outer loop, for so many turns. -/
def turns (quality : Int) (allowed_errors len : Nat) : Nat → Demod → Except Failure (List Cell)
  | 0, _ => .error .out_of_fuel
  | fuel + 1, s =>
    if s.i < len - 1 then
      match turn quality allowed_errors len s with
      | none => .error .out_of_bounds
      | some s => turns quality allowed_errors len fuel s
    else .ok s.buf

def manchester (quality : Int) (allowed_errors fuel : Nat) (buf : List UInt16) :
    Except Failure (List Cell) :=
  turns quality allowed_errors buf.length fuel ⟨samples buf, 0, 0, 0, none⟩

/-- `adsb_frame`, the length with which it is displayed, and the cells that it was read from. -/
structure Frame where
  adsb_frame : List Nat
  frame_len : Nat
  cells : List Cell
deriving DecidableEq

/-- The inner loop of `messages`, with the rest of the buffer. -/
structure Reading where
  adsb_frame : List Nat
  data_i : Nat
  frame_len : Nat
  cells : List Cell
  rest : List Cell

/-- `if (buf[i]) .. adsb_frame[index] |= (uint8_t)(1<<shift)`. -/
def putBit (adsb_frame : List Nat) (data_i : Nat) (v : UInt16) : List Nat :=
  if v ≠ 0 then adsb_frame.modify (data_i / 8) (· ||| (1 <<< (7 - data_i % 8))) else adsb_frame

def readBits : List Cell → List Nat → Nat → Nat → List Cell → Reading
  | [], adsb_frame, data_i, frame_len, cells => ⟨adsb_frame, data_i, frame_len, cells, []⟩
  | c :: rest, adsb_frame, data_i, frame_len, cells =>
    if c.value ≤ 1 ∧ data_i < frame_len then
      let adsb_frame := putBit adsb_frame data_i c.value
      if data_i = 7 then
        if adsb_frame.getD 0 0 = 0 then ⟨adsb_frame, data_i, frame_len, cells, c :: rest⟩
        else
          readBits rest adsb_frame (data_i + 1)
            (if adsb_frame.getD 0 0 &&& 0x80 ≠ 0 then long_frame else short_frame) (cells ++ [c])
      else readBits rest adsb_frame (data_i + 1) frame_len (cells ++ [c])
    else ⟨adsb_frame, data_i, frame_len, cells, c :: rest⟩

theorem readBits_rest (cells : List Cell) (adsb_frame : List Nat) (data_i frame_len : Nat)
    (read : List Cell) :
    (readBits cells adsb_frame data_i frame_len read).rest.length ≤ cells.length := by
  induction cells generalizing adsb_frame data_i frame_len read with
  | nil => exact Nat.le_refl _
  | cons c rest ih =>
    unfold readBits
    split
    · dsimp only
      split
      · split
        · exact Nat.le_refl _
        · exact (ih _ _ _ _).trans (Nat.le_succ _)
      · exact (ih _ _ _ _).trans (Nat.le_succ _)
    · exact Nat.le_refl _

/-- The frames that are passed to `display`. -/
def messages (buf : List Cell) : List Frame :=
  match buf with
  | [] => []
  | c :: rest =>
    if c.value > 1 then messages rest
    else
      let r := readBits (c :: rest) (List.replicate 14 0) 0 long_frame []
      if r.data_i < r.frame_len - 1 then messages r.rest.tail
      else ⟨r.adsb_frame, r.frame_len, r.cells⟩ :: messages r.rest.tail
termination_by buf.length
decreasing_by
  · exact Nat.lt_succ_self _
  all_goals
    have shorter := readBits_rest (c :: rest) (List.replicate 14 0) 0 long_frame []
    rw [List.length_tail]
    rw [List.length_cons] at shorter ⊢
    omega

/-- The bytes that are printed of a frame, if it is printed. -/
def display (short_output : Bool) (quality : Int) (f : Frame) : Option (List Nat) :=
  let df := (f.adsb_frame.getD 0 0 >>> 3) &&& 0x1f
  if !short_output && decide (f.frame_len ≤ short_frame) then none
  else if quality = 0 ∧ ¬(df = 11 ∨ df = 17 ∨ df = 18 ∨ df = 19) then none
  else some (f.adsb_frame.take ((f.frame_len + 7) / 8))

end Soapy.Rtl.Adsb
