import Soapy.Lime.ChannelPreserved

/-! # The channel that each routine leaves

Most ways out of a routine select the channel that was read at the start. The others leave the
channel that was selected last.
-/

namespace Soapy.Lime

open Lib

theorem Keys.sorted (keys : Keys) : (keys.ofChannel 0).Pairwise (· < ·) :=
  keys.get_sorted .a

variable {address : UInt16}

theorem Keys.not_mac (keys : Keys)
    (used : address ∈ (keys.ofChannel 0).erase macAddress) : address ≠ macAddress :=
  fun mac => List.Nodup.not_mem_erase (keys.sorted.imp ne_of_lt) (mac ▸ used)

theorem Keys.high_get (keys : Keys) (used : address ∈ keys.ofChannel 1) :
    ¬ address < 0x0100 :=
  keys.high address ((keys.mem_get .b address).mp used)

theorem not_mac_high (high : ¬ address < 0x0100) : address ≠ macAddress :=
  fun mac => high (mac ▸ by decide)

namespace Session

theorem mac_idem (b : Session) : b.mac &&& 0x0003 = b.mac := by
  unfold Session.mac
  rw [RegistersMap.mac, UInt16.and_assoc, UInt16.and_self]

theorem reading_idem (b : Session) : b.reading &&& 0x0003 = b.reading := by
  unfold reading found
  split
  · rw [Option.getD_some, Chip.mac, UInt16.and_assoc, UInt16.and_self]
  · rfl

theorem getActiveChannel_continues (fromChip : Bool) :
    Moves Continues (getActiveChannel fromChip) :=
  getBits_continues MAC fromChip

variable {b : Session}

theorem restored {α : Type} {rest : UInt16 → LmsM α} (selects : ∀ ch, Selects ch (rest ch))
    (sure : b.Sure b.reading) : ((getActiveChannel true >>= rest) b).2.mac = b.reading := by
  rw [bind_run, (getActiveChannel_chip b).1,
    selects b.reading _ ((getActiveChannel_continues true b).sure sure), reading_idem]

variable (tx : Bool)

variable {freq : Rat}

variable (channel : Nat)

def tuned (reading : UInt16) (found : Option Int) : LmsM Int :=
  match found with
  | some status => pure status
  | none => tuneInRange reading

/-- The transfer that fails first. -/
inductive Failed where
  | none
  | channelA
  | mac
  | channelB

theorem getValue_run (address : UInt16) (b : Session) :
    getValue channel address b = (b.lms.mRegistersMap.getValue channel address, b) := rfl

theorem getValues_run (addresses : List UInt16) (b : Session) :
    getValues channel addresses b =
      (addresses.map fun a => (a, b.lms.mRegistersMap.getValue channel a), b) := rfl

theorem spiWrite_mac (data : UInt16) (b : Session) :
    (spiWrite macAddress data b).2.mac = data &&& 0x0003 :=
  LMS7002M.spiWrite_setsMac _ _ _ _

/-- The channel that `DownloadAll` asks for. -/
def asked (b : Session) : UInt16 := if b.lms.useCache then b.mac else b.reading

theorem spiReadBatch_failed {addresses : List UInt16}
    (failed : (spiReadBatch addresses b).1.1 ≠ 0) : (spiReadBatch addresses b).2.mac = b.mac := by
  let result := (b.answers 0 b.lms.chip).2
  let s : LMS7002M := { b.lms with chip := (b.answers 0 b.lms.chip).1 }
  have call : spiReadBatch addresses b = (((s.spiReadBatch addresses result).1,
      (s.spiReadBatch addresses result).2.1), { b with
        lms := (s.spiReadBatch addresses result).2.2
        answers := fun n => b.answers (n + 1) }) := rfl
  rw [call] at failed ⊢
  by_cases done : result = 0
  · rw [LMS7002M.spiReadBatch, if_neg (not_not.mpr done)] at failed
    exact absurd rfl failed
  · change (s.spiReadBatch addresses result).2.2.mRegistersMap.mac = b.mac
    rw [LMS7002M.spiReadBatch_failed done]
    rfl

inductive Routine where
  | SetFrequencyCGEN (freq : Rat) (retainNCOfrequencies output : Bool)
  | SetFrequencySX (tx : Bool) (freq : Rat)
  | GetFrequencySX (tx : Bool)
  | TuneVCO (module : VCO_Module)
  | GetSampleRate (tx : Bool) (ch : UInt16)
  | EnableChannel (isTx enable : Bool)
  | UploadAll
  | DownloadAll
  | IsSynced

namespace Routine

variable {keys : Keys}

def after (keys : Keys) (b : Session) : Routine → Session
  | SetFrequencyCGEN freq retain output => (setFrequencyCGEN freq retain output b).2
  | SetFrequencySX tx freq => (setFrequencySX tx freq b).2
  | GetFrequencySX tx => (getFrequencySX tx b).2
  | TuneVCO module => (tuneVCO module b).2
  | GetSampleRate tx ch => (getSampleRate tx ch b).2
  | EnableChannel isTx enable => (enableChannel isTx enable b).2
  | UploadAll => (uploadAll keys b).2
  | DownloadAll => (downloadAll keys b).2
  | IsSynced => (isSynced keys b).2

/-- The channel that the routine finds at the start. Only `DownloadAll` may ask the map. -/
def finds (b : Session) : Routine → UInt16
  | DownloadAll => b.asked
  | _ => b.reading

end Routine

/-- The registers start with the one that has the MAC bits. -/
def firstKeys : Keys where
  mChannelA := OrdMap.empty.insert macAddress ()
  mChannelB := OrdMap.empty
  mac := rfl
  high := nofun
  small := by
    rintro ⟨bank, a⟩ used
    cases bank with
    | a =>
      rw [UsedAddresses.has, OrdMap.find?_insert] at used
      split at used
      · subst a
        decide
      · cases used
    | b => cases used

def sessionA : Session where
  lms := ⟨⟨fun _ => 1, fun _ => 0⟩, false, ⟨fun _ => 1, fun _ => 0⟩⟩
  answers _ := doneAnswer
  _cachedRefClockRate := 30720000
  tuning_cache _ := none

end Session

end Soapy.Lime
