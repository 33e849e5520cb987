import Soapy.Remote.StreamPayload
import Soapy.Remote.Transparency

/-! # The arithmetic of an endpoint

SETUP_STREAM makes an endpoint of what the client asks for: the mtu of the stream arguments, the
number of channels, and the size of an element of the format. None of them is checked.
-/

namespace Soapy.Remote

open Lib

namespace EndpointConfig

/-- The sizes of an endpoint are those of integers without a bound, the channels fit into the
    buffer, and the window can be divided by the mtu. -/
structure Exact (c : EndpointConfig) : Prop where
  xferSize : (c.xferSize.toNat : Int) = c.mtu.toNat - 48
  buffSize : (c.buffSize.toNat : Int) = (c.mtu.toNat - 48 - 24) / c.numChans.toNat / c.elemSize.toNat
  offset : ∀ i, i < c.numChans.toNat → (c.channelOffset (UInt64.ofNat i)).toNat =
    24 + i * c.buffSize.toNat * c.elemSize.toNat
  inside : ∀ i, i < c.numChans.toNat → (c.channelOffset (UInt64.ofNat i)).toNat +
    c.buffSize.toNat * c.elemSize.toNat ≤ c.xferSize.toNat
  window : c.mtu ≠ 0

variable {c : EndpointConfig}

theorem exact_of_mtu (large : 72 ≤ c.mtu.toNat) : c.Exact where
  xferSize := by
    rw [xferSize_toNat (by omega)]
    omega
  buffSize := by
    have sizes : (c.mtu.toNat : Int) - 48 - 24 = ((c.mtu.toNat - 48 - 24 : Nat) : Int) := by omega
    rw [buffSize_toNat large, sizes]
    rfl
  offset i channel := by
    rw [channelOffset_toNat large channel, channelBytes, Nat.mul_assoc]
  inside i channel := by
    have all := channels_le large
    have here := channel_le channel
    rw [channelOffset_toNat large channel]
    change 24 + i * c.channelBytes + c.channelBytes ≤ _
    omega
  window none := by
    rw [none] at large
    cases large

theorem mtu_of_exact (numChans : c.numChans ≠ 0) (elemSize : c.elemSize ≠ 0) (exact : c.Exact)
    (built : 48 ≤ c.mtu.toNat) : 72 ≤ c.mtu.toNat := by
  by_contra small
  have chans : (0 : Int) < c.numChans.toNat := by
    have some_ : c.numChans.toNat ≠ 0 := fun none => numChans (UInt64.toNat_inj.mp none)
    omega
  have size : (0 : Int) < c.elemSize.toNat := by
    have some_ : c.elemSize.toNat ≠ 0 := fun none => elemSize (UInt64.toNat_inj.mp none)
    omega
  have negative : ((c.mtu.toNat : Int) - 48 - 24) / c.numChans.toNat / c.elemSize.toNat < 0 := by
    apply Int.ediv_neg_of_neg_of_pos _ size
    apply Int.ediv_neg_of_neg_of_pos _ chans
    omega
  rw [← exact.buffSize] at negative
  omega

end EndpointConfig

/-- How the construction of an endpoint ends: not with a division by zero, and with exact sizes
    unless it throws. -/
def Sound (c : EndpointConfig) : Except Stop Unit → Prop
  | .error .crashed => False
  | .error (.thrown _) => True
  | .ok _ => c.Exact

theorem sound_critical {W : Type} {c : EndpointConfig} (exact : c.Exact)
    (f : W → Except Exn Unit × W) (s : Server W) : Sound c (Handle.critical f s).1 := by
  unfold Handle.critical
  cases result : Handle.outside f s with
  | mk r s' =>
    cases r with
    | ok a =>
      rw [Action.rescue_ok result]
      exact exact
    | error e =>
      rw [Action.rescue_error result]
      unfold Handle.outside at result
      split at result
      · cases result
      · cases result
        trivial

theorem wrapped {mtu : UInt64} (small : mtu.toNat < 48) : 2 ^ 63 ≤ (mtu - 48).toNat := by
  rw [UInt64.toNat_sub]
  change 2 ^ 63 ≤ (2 ^ 64 - 48 + mtu.toNat) % 2 ^ 64
  omega

theorem createEndpoint_sound {W : Type} (env : World W) (s : Server W) {c : EndpointConfig}
    {numChans : Nat} (chans : numChans ≠ 0) (elemSize : c.elemSize ≠ 0)
    (mtu : c.mtu.toNat < 48 ∨ 72 ≤ c.mtu.toNat) :
    Sound c (Handle.createEndpoint env numChans c.elemSize c.mtu s).1 := by
  unfold Handle.createEndpoint
  rw [if_neg (not_or.mpr ⟨chans, elemSize⟩)]
  split
  · trivial
  · rename_i allocates
    apply sound_critical
    rcases mtu with small | large
    · exact absurd (wrapped small) allocates
    · exact EndpointConfig.exact_of_mtu large

theorem createEndpoint_built {numChans : Nat} {elemSize mtu : UInt64} (chans : numChans ≠ 0)
    (size : elemSize ≠ 0) (small : mtu.toNat < 72) (large : 48 ≤ mtu.toNat) :
    (Handle.createEndpoint bareWorld numChans elemSize mtu (Server.init ())).1 = .ok () := by
  have allocates : ¬ 2 ^ 63 ≤ (mtu - 48).toNat := by
    have above : (48 : UInt64) ≤ mtu := UInt64.le_iff_toNat_le.mpr large
    rw [UInt64.toNat_sub_of_le _ _ above]
    change ¬ 2 ^ 63 ≤ mtu.toNat - 48
    omega
  unfold Handle.createEndpoint
  rw [if_neg (not_or.mpr ⟨chans, size⟩), if_neg allocates]
  rfl

/-- A client can build an endpoint without harm if and only if the stream has channels, the format a
    size, and the mtu room for the headers, or so little that no buffer can be allocated. -/
theorem endpoint_sound_iff (datagramMode : Bool) (format : Bytes) (channels : List UInt64)
    (mtu : UInt64) (fits : channels.length < 2 ^ 64) :
    (∀ (W : Type) (env : World W) (s : Server W),
      Sound ⟨datagramMode, UInt64.ofNat channels.length, formatToSize format, mtu⟩
        (Handle.createEndpoint env channels.length (formatToSize format) mtu s).1) ↔
    channels ≠ [] ∧ formatToSize format ≠ 0 ∧ (mtu.toNat < 48 ∨ 72 ≤ mtu.toNat) := by
  constructor
  · intro sound
    have built := sound Unit bareWorld (Server.init ())
    have divides : ¬ (channels.length = 0 ∨ formatToSize format = 0) := by
      intro zero
      rw [Handle.createEndpoint, if_pos zero] at built
      exact built
    obtain ⟨chans, size⟩ := not_or.mp divides
    refine ⟨fun none => chans (by rw [none]; rfl), size, ?_⟩
    by_contra small
    obtain ⟨large, small⟩ := not_or.mp small
    rw [createEndpoint_built chans size (Nat.lt_of_not_le small) (Nat.le_of_not_lt large)] at built
    have numChans : UInt64.ofNat channels.length ≠ 0 := by
      intro none
      have same := congrArg UInt64.toNat none
      rw [UInt64.toNat_ofNat_of_lt' fits] at same
      exact chans same
    exact small (EndpointConfig.mtu_of_exact numChans size built (Nat.le_of_not_lt large))
  · intro meets W env s
    obtain ⟨chans, size, mtu_fits⟩ := meets
    have some_ : channels.length ≠ 0 := fun none => chans (List.eq_nil_of_length_eq_zero none)
    exact createEndpoint_sound (c := ⟨datagramMode, UInt64.ofNat channels.length,
      formatToSize format, mtu⟩) env s some_ size mtu_fits

theorem default_mtu_sound :
    (∀ (W : Type) (env : World W) (s : Server W),
      Sound ⟨true, 1, formatToSize (ascii "CS16"), 1500⟩
        (Handle.createEndpoint env 1 (formatToSize (ascii "CS16")) 1500 s).1) ↔
    [(0 : UInt64)] ≠ [] ∧ formatToSize (ascii "CS16") ≠ 0 ∧
      ((1500 : UInt64).toNat < 48 ∨ 72 ≤ (1500 : UInt64).toNat) :=
  endpoint_sound_iff true (ascii "CS16") [0] 1500 (by decide)

/-- A stream without channels ends the server. -/
theorem no_channels_crash :
    ¬ ∀ (datagramMode : Bool) (format : Bytes) (channels : List UInt64) (mtu : UInt64),
      channels.length < 2 ^ 64 → ∀ (W : Type) (env : World W) (s : Server W),
      Sound ⟨datagramMode, UInt64.ofNat channels.length, formatToSize format, mtu⟩
        (Handle.createEndpoint env channels.length (formatToSize format) mtu s).1 := by
  intro sound
  exact sound true (ascii "CS16") [] 1500 (by decide) Unit bareWorld (Server.init ())

end Soapy.Remote
