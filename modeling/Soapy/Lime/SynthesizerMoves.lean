import Soapy.Lime.Synthesizers

/-! # Where the parts of the synthesizer routines move a session

A part moves along a preorder if the accesses do that it is made of.
-/

namespace Soapy.Lime.Session

open Lib

variable {R : Session → Session → Prop} [IsPreorder Session R]

theorem getBits_moves {p : Parameter} {fromChip : Bool}
    (read : Moves R (spiRead p.address fromChip)) : Moves R (getBits p fromChip) :=
  read.bind fun _ => .pure _

section CGEN

variable (power : Moves R (modifyBits ⟨0x0086, 2, 1⟩ 0))
  (csw : ∀ value, Moves R (modifyBits CSW_VCO_CGEN value))
  (compare : Moves R (getBits ⟨0x008C, 13, 12⟩ true))

include csw compare

theorem checkCSW_moves (cswVal : Int) : Moves R (checkCSW cswVal) :=
  (csw _).bind fun _ => compare

theorem findLock_moves (steps : List Int) (start : Int) : Moves R (findLock steps start) := by
  induction steps generalizing start with
  | nil => exact .pure start
  | cons step rest ih =>
    exact (checkCSW_moves csw compare start).bind fun _ => .ite (ih _) (.ite (ih _) (.pure _))

include power

theorem tuneCGENVCO_moves : Moves R tuneCGENVCO :=
  have check := checkCSW_moves csw compare
  power.bind fun _ => .ite (.pure _) ((findLock_moves csw compare _ _).bind fun _ =>
    (Moves.foldlM (fun _ _ => (check _).bind fun _ => .pure _) _ _).bind fun _ =>
      (Moves.foldlM (fun _ _ => (check _).bind fun _ => .pure _) _ _).bind fun _ =>
        (check _).bind fun _ => .pure _)

theorem finishCGEN_moves (read : Moves R (getBits CSW_VCO_CGEN false)) (output : Bool) :
    Moves R (finishCGEN output) :=
  (tuneCGENVCO_moves power csw compare).bind fun _ =>
    (Moves.ite read (.pure _)).bind fun _ => .pure _

end CGEN

theorem getReferenceClkTSP_moves (clock : Moves R getReferenceClkSX)
    (read : ∀ address ∈ ([0x0086, 0x0087, 0x0088, 0x0089] : List UInt16),
      Moves R (spiRead address true)) (tx : Bool) : Moves R (getReferenceClkTSP tx) :=
  have frequency : Moves R getFrequencyCGEN :=
    clock.bind fun _ => (getBits_moves (read 0x0089 (by decide))).bind fun _ =>
      (getBits_moves (read 0x0088 (by decide))).bind fun _ =>
        (getBits_moves (read 0x0087 (by decide))).bind fun _ => .pure _
  frequency.bind fun _ => (getBits_moves (read 0x0089 (by decide))).bind fun _ =>
    (getBits_moves (read 0x0086 (by decide))).bind fun _ => .ite (.pure _) (.pure _)

section NCO

variable {tx : Bool} (clock : Moves R (getReferenceClkTSP tx))

include clock

theorem getNCOFrequency_moves (index : UInt8) (fromChip : Bool)
    (high : Moves R (spiRead (ncoAddress tx + 2 + index.toUInt16 * 2) fromChip))
    (low : Moves R (spiRead (ncoAddress tx + 3 + index.toUInt16 * 2) fromChip)) :
    Moves R (getNCOFrequency tx index fromChip) :=
  .ite (.pure _) (clock.bind fun _ => high.bind fun _ => low.bind fun _ => .pure _)

theorem setNCOFrequency_moves (index : UInt8) (freq : Rat)
    (high : ∀ data, Moves R (spiWrite (ncoAddress tx + 2 + index.toUInt16 * 2) data))
    (low : ∀ data, Moves R (spiWrite (ncoAddress tx + 3 + index.toUInt16 * 2) data)) :
    Moves R (setNCOFrequency tx index freq) :=
  .ite (.pure _) (clock.bind fun _ =>
    .ite (.pure _) ((high _).bind fun _ => (low _).bind fun _ => .pure _))

theorem getNCOs_moves (modeNCO : Bool) (read : ∀ (index : UInt8) (k : UInt16), k.toNat ≤ 3 →
      Moves R (spiRead (ncoAddress tx + k + index.toUInt16 * 2) false)) :
    Moves R (getNCOs tx modeNCO) :=
  .ite (.pure _) (.mapM (fun _ => getNCOFrequency_moves clock _ false (read _ 2 (by decide))
    (read _ 3 (by decide))) _)

theorem setNCOs_moves (modeNCO : Bool) (freqs : List Rat)
    (write : ∀ (index : UInt8) (k : UInt16), k.toNat ≤ 3 →
      ∀ data, Moves R (spiWrite (ncoAddress tx + k + index.toUInt16 * 2) data)) :
    Moves R (setNCOs tx modeNCO freqs) :=
  .ite (.pure _) (.forM (fun _ => (setNCOFrequency_moves clock _ _ (write _ 2 (by decide))
    (write _ 3 (by decide))).bind fun _ => .pure _) _)

end NCO

section SX

variable (csw : ∀ value, Moves R (modifyBits CSW_VCO value))
  (compare : Moves R (getBits ⟨0x0123, 13, 12⟩ true))

include csw compare

theorem settle_moves (value : UInt16) : Moves R (settle value) := (csw value).bind fun _ => compare

theorem lower_moves (bottom : Int16) (fuel : Nat) (cswSearch : CSWInteval) :
    Moves R (lower bottom fuel cswSearch) := by
  induction fuel generalizing cswSearch with
  | zero => exact .pure cswSearch
  | succ fuel ih =>
    exact .ite ((settle_moves csw compare _).bind fun _ => .ite (.pure _) (ih _)) (.pure _)

theorem searchHalf_moves (t : Int16) : Moves R (searchHalf t) :=
  (csw _).bind fun _ =>
    (Moves.foldlM (fun _ _ => (settle_moves csw compare _).bind fun _ => .pure _) _ _).bind fun _ =>
      lower_moves csw compare _ _ _

theorem writeCSW_moves (interval : CSWInteval) : Moves R (writeCSW interval) :=
  .ite ((settle_moves csw compare _).bind fun _ => .ite (.pure _) ((csw _).bind fun _ => .pure _))
    ((csw _).bind fun _ => .pure _)

theorem tuneInRange_moves {ch : UInt16} (select : Moves R (setActiveChannel ch)) :
    Moves R (tuneInRange ch) :=
  have back {α : Type} (a : α) : Moves R (do setActiveChannel ch; return a) :=
    select.bind fun _ => .pure a
  (settle_moves csw compare 0).bind fun _ => .ite (back _)
    ((settle_moves csw compare 255).bind fun _ => .ite (back _)
      ((searchHalf_moves csw compare 0).bind fun _ => (searchHalf_moves csw compare 1).bind fun _ =>
        (writeCSW_moves csw compare _).bind fun _ => compare.bind fun _ => back _))

end SX

theorem powerUp_moves (bias : Moves R (getBits ICT_VCO false))
    (power : Moves R (modifyBits ⟨0x011C, 2, 1⟩ 0))
    (down : Moves R (getBits ⟨0x011C, 2, 1⟩ false)) : Moves R powerUp :=
  bias.bind fun _ => power.bind fun _ => .ite (.pure _) (down.bind fun _ => .pure _)

section Full

variable {tx : Bool} (select : ∀ value, Moves R (modifyBits SEL_VCO value))
  (csw : ∀ value, Moves R (modifyBits CSW_VCO value))
  (remember : ∀ f : Session → Session, (∀ b, (f b).lms = b.lms ∧ (f b).answers = b.answers ∧
    (f b)._cachedRefClockRate = b._cachedRefClockRate) → Moves R (modify f : LmsM Unit))

theorem fastTune_moves (freq : Rat) (select : ∀ value, Moves R (modifyBits SEL_VCO value))
    (csw : ∀ value, Moves R (modifyBits CSW_VCO value))
    (compare : Moves R (getBits ⟨0x0123, 13, 12⟩ true)) : Moves R (fastTune freq) := by
  intro b
  unfold fastTune
  split
  · exact Std.Refl.refl b
  · exact ((select _).bind fun _ => (csw _).bind fun _ => compare.bind fun _ => Moves.pure _) b

theorem attempts_moves (more : Nat) (tuneScore : UInt16 → Option Int)
    (select : ∀ value, Moves R (modifyBits SEL_VCO value))
    (tune : Moves R (tuneVCO (if tx then .VCO_SXT else .VCO_SXR)))
    (score : Moves R (getBits CSW_VCO true)) (bias : Moves R (getBits ICT_VCO false))
    (increase : ∀ value, Moves R (modifyBits ICT_VCO value)) :
    Moves R (attempts tx more tuneScore) := by
  have once (tuneScore : UInt16 → Option Int) (sel_vco : UInt16) :
      Moves R (tuneWith tx tuneScore sel_vco) :=
    (select _).bind fun _ => tune.bind fun _ => .ite (score.bind fun _ => .pure _) (.pure _)
  induction more generalizing tuneScore with
  | zero => exact .pure tuneScore
  | succ more ih =>
    exact (Moves.foldlM once _ _).bind fun _ => .ite (.pure _)
      (bias.bind fun _ => .ite (.pure _) ((increase _).bind fun _ => ih _))

include select csw remember

theorem fullTune_moves (freq : Rat)
    (tries : ∀ tuneScore, Moves R (attempts tx 5 tuneScore)) : Moves R (fullTune tx freq) := by
  apply (tries _).bind
  intro tuneScore
  apply (select _).bind
  intro _
  apply (csw _).bind
  intro _
  apply Moves.bind
  · apply remember
    intro b
    split
    · exact ⟨rfl, rfl, rfl⟩
    · exact ⟨rfl, rfl, rfl⟩
  · exact fun _ => .pure _

end Full

end Soapy.Lime.Session
