import Soapy.Remote.ClientHandler
import Soapy.Remote.Codec

/-! # Remote calls are device calls

What a stub packs is what the dispatcher unpacks, and what the dispatcher packs is
what the stub unpacks, for every method. So a remote call runs the method on the
device once, with the same arguments, and ends as it ended there.

Two results do not come back as the method gave them: the hardware info gains the
version of the server, and a number of channels travels as an int.
-/

namespace Soapy.Remote

open Lib

def DirectionFits (direction : Int32) : Prop := -128 ≤ direction.toInt ∧ direction.toInt < 128

/-- A `size_t` that fits an int. -/
def CountFits (n : UInt64) : Prop := n.toNat < 2 ^ 31

def TimeoutFits (timeoutUs : Int64) : Prop :=
  -2 ^ 31 ≤ timeoutUs.toInt ∧ timeoutUs.toInt < 2 ^ 31

namespace Decodes

theorem direction {value : Int32} (fits : DirectionFits value) :
    Decodes Unpack.direction (packDirection value) value := by
  have back : value.toInt8.toInt32 = value := by
    apply Int32.toInt_inj.mp
    rw [Int8.toInt_toInt32, Int32.toInt_toInt8]
    obtain ⟨low, high⟩ := fits
    exact Int.bmod_eq_of_le (by omega) (by omega)
  have decoded := (char value.toInt8).map (f := Int8.toInt32)
  rw [back] at decoded
  exact decoded

theorem sizeCast (value : UInt64) :
    Decodes Unpack.size (packCount value) (Unpack.toSize (intOfSize value)) :=
  (int (intOfSize value)).map (f := Unpack.toSize)

theorem size {value : UInt64} (fits : CountFits value) :
    Decodes Unpack.size (packCount value) value := by
  have back : Unpack.toSize (intOfSize value) = value := UInt64.toNat_inj.mp (toSize_ofNat fits)
  have decoded := sizeCast value
  rwa [back] at decoded

theorem unsigned (value : UInt32) : Decodes Unpack.unsigned (packWord value) value := by
  have back : value.toInt32.toUInt32 = value := by simp
  have decoded := (int value.toInt32).map (f := Int32.toUInt32)
  rw [back] at decoded
  exact decoded

theorem unsignedSize {value : UInt64} (fits : CountFits value) :
    Decodes Unpack.unsignedSize (packCount value) value := by
  have back : (intOfSize value).toUInt32.toUInt64 = value := by
    have word : (intOfSize value).toUInt32 = UInt32.ofNat value.toNat := rfl
    apply UInt64.toNat_inj.mp
    rw [word, UInt32.toNat_toUInt64, UInt32.toNat_ofNat_of_lt' (lt_trans fits (by decide))]
  have decoded := ((int (intOfSize value)).map (f := Int32.toUInt32)).map (f := UInt32.toUInt64)
  rw [back] at decoded
  exact decoded

theorem long {value : Int64} (fits : TimeoutFits value) :
    Decodes Unpack.long (packInt value.toInt32) value := by
  have back : value.toInt32.toInt64 = value := by
    apply Int64.toInt_inj.mp
    rw [Int32.toInt_toInt64, Int64.toInt_toInt32]
    obtain ⟨low, high⟩ := fits
    exact Int.bmod_eq_of_le (by omega) (by omega)
  have decoded := (int value.toInt32).map (f := Int32.toInt64)
  rw [back] at decoded
  exact decoded

theorem toSize_toUInt32 (w : UInt32) :
    (Unpack.toSize (Int32.ofNat w.toUInt64.toNat)).toUInt32 = w := by
  have range := w.toNat_lt
  have signed : (Int32.ofNat w.toUInt64.toNat).toInt = (w.toNat : Int).bmod (2 ^ 32) := by
    rw [Int32.toInt_ofNat', UInt32.toNat_toUInt64]
    rfl
  apply UInt32.toNat_inj.mp
  unfold Unpack.toSize
  rw [signed, UInt64.toNat_toUInt32, UInt64.toNat_ofNat', Int.bmod_def]
  split <;> omega

theorem unsignedList {value : List UInt32} (short : value.length < 2 ^ 31) :
    Decodes Unpack.unsignedList (packSizeList (value.map UInt32.toUInt64)) value := by
  have fits : ListFits (fun _ => True) (value.map UInt32.toUInt64) := by
    refine ⟨?_, fun _ _ => trivial⟩
    rw [List.length_map]
    exact short
  have element : ∀ n : UInt64, True → Decodes (do return Unpack.toSize (← Unpack.int))
      (packInt (Int32.ofNat n.toNat)) (Unpack.toSize (Int32.ofNat n.toNat)) :=
    fun n _ => (int (Int32.ofNat n.toNat)).map (f := Unpack.toSize)
  have sizes := listMap .SIZE_LIST "SOAPY_REMOTE_SIZE_LIST" fits element
  have decoded := sizes.map (f := fun l => l.map UInt64.toUInt32)
  have back : ((value.map UInt32.toUInt64).map
      (fun n : UInt64 => Unpack.toSize (Int32.ofNat n.toNat))).map UInt64.toUInt32 = value := by
    rw [List.map_map, List.map_map]
    exact (List.map_congr_left (fun w _ => toSize_toUInt32 w)).trans (List.map_id' value)
  rw [back] at decoded
  exact decoded
end Decodes

/-- The arguments that reach the device as they were given. -/
def DeviceCall.Fits : DeviceCall → Prop
  | .getDriverKey | .getHardwareKey | .getHardwareInfo | .getMasterClockRate
  | .getMasterClockRates | .getReferenceClockRate | .getReferenceClockRates | .listClockSources
  | .getClockSource | .listTimeSources | .getTimeSource | .listSensors | .listRegisterInterfaces
  | .getSettingInfo | .listGPIOBanks | .listUARTs | .writeRegister .. | .readRegister .. => True
  | .getFrontendMapping direction | .getNumChannels direction => DirectionFits direction
  | .setFrontendMapping direction text => DirectionFits direction ∧ TextFits text
  | .getChannelInfo direction channel | .getFullDuplex direction channel
  | .listAntennas direction channel | .getAntenna direction channel
  | .hasDCOffsetMode direction channel | .getDCOffsetMode direction channel
  | .hasDCOffset direction channel | .getDCOffset direction channel
  | .hasIQBalance direction channel | .getIQBalance direction channel
  | .hasFrequencyCorrection direction channel | .hasIQBalanceMode direction channel
  | .getIQBalanceMode direction channel | .getFrequencyCorrection direction channel
  | .listGains direction channel | .hasGainMode direction channel | .getGainMode direction channel
  | .getGain direction channel | .getGainRange direction channel | .getFrequency direction channel
  | .listFrequencies direction channel | .getFrequencyRange direction channel
  | .getFrequencyArgsInfo direction channel | .getSampleRate direction channel
  | .listSampleRates direction channel | .getSampleRateRange direction channel
  | .getBandwidth direction channel | .listBandwidths direction channel
  | .getBandwidthRange direction channel | .listChannelSensors direction channel
  | .getChannelSettingInfo direction channel | .setDCOffsetMode direction channel _
  | .setIQBalanceMode direction channel _ | .setGainMode direction channel _ =>
    DirectionFits direction ∧ CountFits channel
  | .setAntenna direction channel text | .getGainElement direction channel text
  | .getGainRangeElement direction channel text | .getFrequencyComponent direction channel text
  | .getFrequencyRangeComponent direction channel text
  | .getChannelSensorInfo direction channel text | .readChannelSensor direction channel text
  | .readChannelSetting direction channel text =>
    DirectionFits direction ∧ CountFits channel ∧ TextFits text
  | .setDCOffset direction channel value | .setIQBalance direction channel value =>
    DirectionFits direction ∧ CountFits channel ∧ value.Fits
  | .setFrequencyCorrection direction channel value | .setGain direction channel value
  | .setSampleRate direction channel value | .setBandwidth direction channel value =>
    DirectionFits direction ∧ CountFits channel ∧ value.IsFinite
  | .setGainElement direction channel name value =>
    DirectionFits direction ∧ CountFits channel ∧ TextFits name ∧ value.IsFinite
  | .setFrequency direction channel frequency args =>
    DirectionFits direction ∧ CountFits channel ∧ frequency.IsFinite ∧ KwargsFit args
  | .setFrequencyComponent direction channel name frequency args =>
    DirectionFits direction ∧ CountFits channel ∧ TextFits name ∧ frequency.IsFinite ∧
      KwargsFit args
  | .writeChannelSetting direction channel key value =>
    DirectionFits direction ∧ CountFits channel ∧ TextFits key ∧ TextFits value
  | .setMasterClockRate rate | .setReferenceClockRate rate => rate.IsFinite
  | .setClockSource text | .setTimeSource text | .hasHardwareTime text | .getHardwareTime text
  | .getSensorInfo text | .readSensor text | .readSetting text | DeviceCall.readGPIO text
  | .readGPIODir text | .setHardwareTime _ text | .setCommandTime _ text
  | .writeRegisterNamed text _ _ | .readRegisterNamed text _ | DeviceCall.writeGPIO text _
  | .writeGPIOMasked text _ _ | .writeGPIODir text _ | .writeGPIODirMasked text _ _
  | .writeI2C _ text => TextFits text
  | .writeSetting key value => TextFits key ∧ TextFits value
  | .writeUART which data => TextFits which ∧ TextFits data
  | .writeRegisters name _ value => TextFits name ∧ value.length < 2 ^ 31
  | .readRegisters name _ length => TextFits name ∧ CountFits length
  | .readI2C _ numBytes => CountFits numBytes
  | .transactSPI _ _ numBits => CountFits numBits
  | .readUART which timeoutUs => TextFits which ∧ TimeoutFits timeoutUs

/-- The results that reach the client as the device gave them. -/
def ReturnType.Fits : (t : ReturnType) → t.Carrier → Prop
  | .void, _ | .bool, _ | .unsigned, _ | .longLong, _ => True
  | .size, n => CountFits n
  | .double, value => Double.IsFinite value
  | .complex, value => Complex128.Fits value
  | .string, text => TextFits text
  | .kwargs, value => KwargsFit value
  | .range, value => Range.Fits value
  | .argInfo, info => ArgInfo.Fits info
  | .stringList, value => ListFits TextFits value
  | .doubleList, value => ListFits Double.IsFinite value
  | .unsignedList, value => List.length value < 2 ^ 31
  | .rangeList, value => ListFits Range.Fits value
  | .argInfoList, value => ListFits ArgInfo.Fits value

open Decodes in
theorem arguments_decode (c : DeviceCall) (fits : c.Fits) :
    Decodes (Unpack.arguments c.packRequest.1) c.packRequest.2 (.device c) := by
  cases c with
  | getDriverKey | getHardwareKey | getHardwareInfo | getMasterClockRate | getMasterClockRates
  | getReferenceClockRate | getReferenceClockRates | listClockSources | getClockSource
  | listTimeSources | getTimeSource | listSensors | listRegisterInterfaces | getSettingInfo
  | listGPIOBanks | listUARTs => exact pure _
  | getFrontendMapping | getNumChannels => exact (direction fits).map
  | setFrontendMapping => exact (direction fits.1).bind (string fits.2).map
  | getChannelInfo | getFullDuplex | listAntennas | getAntenna | hasDCOffsetMode
  | getDCOffsetMode | hasDCOffset | getDCOffset | hasIQBalance | getIQBalance
  | hasFrequencyCorrection | hasIQBalanceMode | getIQBalanceMode | getFrequencyCorrection
  | listGains | hasGainMode | getGainMode | getGain | getGainRange | getFrequency
  | listFrequencies | getFrequencyRange | getFrequencyArgsInfo | getSampleRate | listSampleRates
  | getSampleRateRange | getBandwidth | listBandwidths | getBandwidthRange | listChannelSensors
  | getChannelSettingInfo => exact (direction fits.1).bind (size fits.2).map
  | setDCOffsetMode | setIQBalanceMode | setGainMode =>
    simp only [DeviceCall.packRequest, List.append_assoc]
    exact (direction fits.1).bind ((size fits.2).bind (bool _).map)
  | setAntenna | getGainElement | getGainRangeElement | getFrequencyComponent
  | getFrequencyRangeComponent | getChannelSensorInfo | readChannelSensor | readChannelSetting =>
    simp only [DeviceCall.packRequest, List.append_assoc]
    exact (direction fits.1).bind ((size fits.2.1).bind (string fits.2.2).map)
  | setDCOffset | setIQBalance =>
    simp only [DeviceCall.packRequest, List.append_assoc]
    exact (direction fits.1).bind ((size fits.2.1).bind (complex fits.2.2).map)
  | setFrequencyCorrection | setGain | setSampleRate | setBandwidth =>
    simp only [DeviceCall.packRequest, List.append_assoc]
    exact (direction fits.1).bind ((size fits.2.1).bind (double fits.2.2).map)
  | setGainElement =>
    obtain ⟨dir, chan, name, value⟩ := fits
    simp only [DeviceCall.packRequest, List.append_assoc]
    exact (direction dir).bind ((size chan).bind ((string name).bind (double value).map))
  | setFrequency =>
    obtain ⟨dir, chan, frequency, args⟩ := fits
    simp only [DeviceCall.packRequest, List.append_assoc]
    exact (direction dir).bind ((size chan).bind ((double frequency).bind (kwargs args).map))
  | setFrequencyComponent =>
    obtain ⟨dir, chan, name, frequency, args⟩ := fits
    simp only [DeviceCall.packRequest, List.append_assoc]
    exact (direction dir).bind ((size chan).bind ((string name).bind
      ((double frequency).bind (kwargs args).map)))
  | writeChannelSetting =>
    obtain ⟨dir, chan, key, value⟩ := fits
    simp only [DeviceCall.packRequest, List.append_assoc]
    exact (direction dir).bind ((size chan).bind ((string key).bind (string value).map))
  | setMasterClockRate | setReferenceClockRate => exact (double fits).map
  | setClockSource | setTimeSource | hasHardwareTime | getHardwareTime | getSensorInfo
  | readSensor | readSetting | readGPIO | readGPIODir => exact (string fits).map
  | setHardwareTime | setCommandTime => exact (longLong _).bind (string fits).map
  | writeRegister => exact (unsigned _).bind (unsigned _).map
  | readRegister => exact (unsigned _).map
  | writeRegisterNamed | writeGPIOMasked | writeGPIODirMasked =>
    simp only [DeviceCall.packRequest, List.append_assoc]
    exact (string fits).bind ((unsigned _).bind (unsigned _).map)
  | readRegisterNamed | writeGPIO | writeGPIODir => exact (string fits).bind (unsigned _).map
  | writeRegisters =>
    simp only [DeviceCall.packRequest, List.append_assoc]
    exact (string fits.1).bind ((unsigned _).bind (unsignedList fits.2).map)
  | readRegisters =>
    simp only [DeviceCall.packRequest, List.append_assoc]
    exact (string fits.1).bind ((unsigned _).bind (size fits.2).map)
  | writeSetting | writeUART => exact (string fits.1).bind (string fits.2).map
  | writeI2C => exact (int _).bind (string fits).map
  | readI2C => exact (int _).bind (unsignedSize fits).map
  | transactSPI =>
    simp only [DeviceCall.packRequest, List.append_assoc]
    exact (int _).bind ((unsigned _).bind (size fits).map)
  | readUART => exact (string fits.1).bind (long fits.2).map

theorem request_decodes (c : DeviceCall) (fits : c.Fits) :
    Decodes Unpack.request c.request (.device c) :=
  (Decodes.call (.named c.packRequest.1)).bind (arguments_decode c fits)

theorem Decodes.afterRecv {α : Type} {p : Unpack α} {a : α} (remoteRPCVersion : UInt32)
    (value : Value) (decoded : Decodes p (value.pack remoteRPCVersion) a) :
    Decodes (do Unpack.recvTail; p) (value.pack remoteRPCVersion) a := by
  intro u h
  obtain ⟨t, bs, head, notVoid, notException⟩ := value.pack_head remoteRPCVersion
  have kept := recvTail_value (head ▸ h) notVoid notException
  rw [Program.run_bind_ok kept]
  exact decoded u h

theorem Decodes.void : Decodes (do Unpack.recvTail; return ()) (packType .VOID) () := by
  intro u h
  have whole : u.Holds (packType .VOID ++ []) := h
  have consumed := recvTail_void whole
  rw [Program.run_bind_ok consumed]
  rfl

open Decodes in
theorem result_decodes {remoteRPCVersion : UInt32} (current : SoapyRPCVersion ≤ remoteRPCVersion)
    (c : DeviceCall) (r : c.Result) (fits : c.returnType.Fits r) :
    Decodes (do Unpack.recvTail; c.unpackResult remoteRPCVersion) (c.packResult remoteRPCVersion r)
      r := by
  cases c with
  | setFrontendMapping | setAntenna | setDCOffsetMode | setDCOffset | setIQBalance
  | setIQBalanceMode | setFrequencyCorrection | setGainMode | setGain | setGainElement
  | setFrequency | setFrequencyComponent | setSampleRate | setBandwidth | setMasterClockRate
  | setReferenceClockRate | setClockSource | setTimeSource | setHardwareTime | setCommandTime
  | writeRegisterNamed | writeRegister | writeRegisters | writeSetting | writeChannelSetting
  | writeGPIO | writeGPIOMasked | writeGPIODir | writeGPIODirMasked | writeI2C | writeUART =>
    exact void
  | getFullDuplex | hasDCOffsetMode | getDCOffsetMode | hasDCOffset | hasIQBalance
  | hasFrequencyCorrection | hasIQBalanceMode | getIQBalanceMode | hasGainMode | getGainMode
  | hasHardwareTime => exact afterRecv remoteRPCVersion (.bool r) (bool r)
  | getNumChannels => exact afterRecv remoteRPCVersion (.int (intOfSize r)) (size fits)
  | readRegisterNamed | readRegister | readGPIO | readGPIODir | transactSPI =>
    exact afterRecv remoteRPCVersion (.int r.toInt32) (unsigned r)
  | getHardwareTime => exact afterRecv remoteRPCVersion (.longLong r) (longLong r)
  | getFrequencyCorrection | getGain | getGainElement | getFrequency | getFrequencyComponent
  | getSampleRate | getBandwidth | getMasterClockRate | getReferenceClockRate =>
    exact afterRecv remoteRPCVersion (.double r) (double fits)
  | getDCOffset | getIQBalance => exact afterRecv remoteRPCVersion (.complex r) (complex fits)
  | getDriverKey | getHardwareKey | getFrontendMapping | getAntenna | getClockSource
  | getTimeSource | readSensor | readChannelSensor | readSetting | readChannelSetting | readI2C
  | readUART => exact afterRecv remoteRPCVersion (.string r) (string fits)
  | getHardwareInfo | getChannelInfo => exact afterRecv remoteRPCVersion (.kwargs r) (kwargs fits)
  | getGainRange | getGainRangeElement =>
    exact afterRecv remoteRPCVersion (.range r) (range current fits)
  | getSensorInfo | getChannelSensorInfo =>
    exact afterRecv remoteRPCVersion (.argInfo r) (argInfo current fits)
  | listAntennas | listGains | listFrequencies | listClockSources | listTimeSources | listSensors
  | listChannelSensors | listRegisterInterfaces | listGPIOBanks | listUARTs =>
    exact afterRecv remoteRPCVersion (.stringList r) (stringList fits)
  | listSampleRates | listBandwidths =>
    exact afterRecv remoteRPCVersion (.doubleList r) (doubleList fits)
  | readRegisters =>
    exact afterRecv remoteRPCVersion (.sizeList (r.map UInt32.toUInt64)) (unsignedList fits)
  | getFrequencyRange | getFrequencyRangeComponent | getSampleRateRange | getBandwidthRange
  | getMasterClockRates | getReferenceClockRates =>
    exact afterRecv remoteRPCVersion (.rangeList r) (rangeList current fits)
  | getFrequencyArgsInfo | getSettingInfo | getChannelSettingInfo =>
    exact afterRecv remoteRPCVersion (.argInfoList r) (argInfoList current fits)

/-- How a remote call ends when the method ended with `result`. -/
def DeviceCall.outcome (serverVersion : Bytes) (c : DeviceCall) :
    Except Exn c.Result → Except Exn c.Result
  | .ok r => .ok (c.served serverVersion r)
  | .error e => .error (.runtimeError (ascii "RemoteError: " ++ e.what))

/-- The payload of the reply when the method ended with `result`. -/
def DeviceCall.reply (serverVersion : Bytes) (c : DeviceCall) : Except Exn c.Result → Bytes
  | .ok r => c.packResult SoapyRPCVersion (c.served serverVersion r)
  | .error e => packException e

/-- A result the reply can carry: a value that survives the format, or a text of
    an exception that is not too long. -/
def DeviceCall.OutcomeFits (serverVersion : Bytes) (c : DeviceCall) : Except Exn c.Result → Prop
  | .ok r => c.returnType.Fits (c.served serverVersion r)
  | .error e => TextFits e.what

theorem DeviceCall.request_head (c : DeviceCall) :
    ∃ bs, c.request = RemoteTypes.CALL.code :: bs := ⟨_, rfl⟩

theorem recv_request (link : Link) (works : ∀ n, (link.grants n).isSome) (later : Bytes)
    (c : DeviceCall) (small : (frame c.request).length < 2 ^ 32) :
    recv link (frame c.request ++ later) = some (.ok (received link c.request), later) := by
  obtain ⟨bs, head⟩ := c.request_head
  have accepted := recvMessage_frame link works c.request later (by rw [head]; simp) small
  have holds := received_holds link c.request small
  rw [head] at holds
  have kept := recvTail_value holds (by decide) (by decide)
  rw [← head] at kept
  simp only [recv, accepted, kept]

theorem received_done (link : Link) (payload : Bytes) (small : (frame payload).length < 2 ^ 32) :
    ((received link payload).advance payload.length).done = true :=
  Unpacker.done_of_consumed (by simp [received]) (received_holds link payload small).bounded

section Server

variable {W : Type} (env : World W) {s : Server W} {dev : DevicePtr}

def Server.afterCall (s : Server W) (c : DeviceCall) (world : W) : Server W :=
  { s with world := world, calls := s.calls ++ [c] }

theorem device_connected (connected : s.dev = some dev) :
    (Handle.device : Handle W DevicePtr) s = (.ok dev, s) := by
  rw [Handle.device, Action.bind_ok (show Action.get s = (.ok s, s) from rfl), connected]
  rfl

theorem handleOnce_device (connected : s.dev = some dev) {u u' : Unpacker} {c : DeviceCall}
    (version : u.remoteRPCVersion = SoapyRPCVersion)
    (decoded : Program.run Unpacker.exec Unpack.request u = (.ok (.device c), u')) :
    Handle.handleOnce env u s =
      (.ok true, { s with
        world := (env.method dev c s.world).2
        calls := s.calls ++ [c]
        sent := s.sent ++ [c.reply env.serverVersion (env.method dev c s.world).1] }) := by
  have found := device_connected connected
  cases answer : env.method dev c s.world with
  | mk result world =>
    have called : Handle.callMethod env c s =
        (result.mapError .thrown, s.afterCall c world) := by
      unfold Handle.callMethod
      rw [Action.bind_ok found, Action.bind_ok (show Action.modify _ s = (.ok (), _) from rfl)]
      unfold Handle.outside
      dsimp only
      rw [answer]
      cases result <;> rfl
    unfold Handle.handleOnce
    cases result with
    | ok r =>
      have packed : Handle.perform env SoapyRPCVersion (.device c) s =
          (.ok (c.reply env.serverVersion (.ok r)), s.afterCall c world) :=
        Action.bind_ok called
      have dispatched : Handle.dispatch env u s =
          (.ok (true, c.reply env.serverVersion (.ok r)), s.afterCall c world) := by
        rw [Handle.dispatch_read env decoded, version, Action.bind_ok packed]
        rfl
      rw [Action.bind_ok (Action.rescue_ok dispatched)]
      rfl
    | error e =>
      have packed : Handle.perform env SoapyRPCVersion (.device c) s =
          (.error (.thrown e), s.afterCall c world) := Action.bind_error called
      have dispatched : Handle.dispatch env u s =
          (.error (.thrown e), s.afterCall c world) := by
        rw [Handle.dispatch_read env decoded, version, Action.bind_error packed]
      rw [Action.bind_ok (Action.rescue_error dispatched)]
      rfl

end Server

theorem DeviceCall.reply_ne_nil (serverVersion : Bytes) (c : DeviceCall)
    (result : Except Exn c.Result) : c.reply serverVersion result ≠ [] := by
  cases result with
  | error e => exact List.cons_ne_nil _ _
  | ok r => cases c <;> exact List.cons_ne_nil _ _

theorem awaitReply_ended (link : Link) (works : ∀ n, (link.grants n).isSome) (later payload : Bytes)
    (nonempty : payload ≠ []) (small : (frame payload).length < 2 ^ 32) (c : DeviceCall)
    {result : Except Exn c.Result}
    (ended : Program.run Unpacker.exec (do Unpack.recvTail; c.unpackResult SoapyRPCVersion)
      (received link payload) = (result, (received link payload).advance payload.length)) :
    c.awaitReply link (frame payload ++ later) =
      some (result, some ((received link payload).advance payload.length), later) := by
  have accepted := recvMessage_frame link works payload later nonempty small
  have version : (received link payload).remoteRPCVersion = SoapyRPCVersion := rfl
  rw [DeviceCall.awaitReply, accepted]
  simp only [version, ended]

theorem awaitReply_outcome (link : Link) (works : ∀ n, (link.grants n).isSome) (later : Bytes)
    (serverVersion : Bytes) (c : DeviceCall) (result : Except Exn c.Result)
    (fits : c.OutcomeFits serverVersion result)
    (small : (frame (c.reply serverVersion result)).length < 2 ^ 32) :
    ∃ u : Unpacker, c.awaitReply link (frame (c.reply serverVersion result) ++ later) =
        some (c.outcome serverVersion result, some u, later) ∧ u.done = true := by
  have holds := received_holds link _ small
  refine ⟨_, awaitReply_ended link works later _ (c.reply_ne_nil serverVersion result) small c ?_,
    received_done link _ small⟩
  cases result with
  | ok r => exact result_decodes (UInt32.le_refl _) c (c.served serverVersion r) fits _ holds
  | error e => exact Program.run_bind_error (recvTail_exception holds fits)

/-- A device method called through the client runs once on the server's device, with the same
    arguments, and the stub returns its value or throws `RemoteError` with its message; both
    messages are consumed whole. -/
theorem remoteCall_transparent {W : Type} (env : World W) (s : Server W) (dev : DevicePtr)
    (connected : s.dev = some dev) (serverLink clientLink : Link)
    (serverReceives : ∀ n, (serverLink.grants n).isSome)
    (clientReceives : ∀ n, (clientLink.grants n).isSome) (moreRequests moreReplies : Bytes)
    (c : DeviceCall) (arguments : c.Fits)
    (results : c.OutcomeFits env.serverVersion (env.method dev c s.world).1)
    (requestSmall : (frame c.request).length < 2 ^ 32) (replySmall :
      (frame (c.reply env.serverVersion (env.method dev c s.world).1)).length < 2 ^ 32) :
    ∃ (u u' u'' : Unpacker) (s' : Server W) (reply : Bytes),
      recv serverLink (frame c.request ++ moreRequests) = some (.ok u, moreRequests) ∧
      Program.run Unpacker.exec Unpack.request u = (.ok (.device c), u') ∧ u'.done = true ∧
      Handle.handleOnce env u s = (.ok true, s') ∧
      s'.calls = s.calls ++ [c] ∧ s'.world = (env.method dev c s.world).2 ∧
      s'.sent = s.sent ++ [reply] ∧
      c.awaitReply clientLink (frame reply ++ moreReplies) =
        some (c.outcome env.serverVersion (env.method dev c s.world).1, some u'', moreReplies) ∧
      u''.done = true := by
  have accepted := recv_request serverLink serverReceives moreRequests c requestSmall
  have holds := received_holds serverLink c.request requestSmall
  have decoded := request_decodes c arguments _ holds
  have handled := handleOnce_device env connected rfl decoded
  obtain ⟨u'', returned, consumed⟩ := awaitReply_outcome clientLink clientReceives moreReplies
    env.serverVersion c (env.method dev c s.world).1 results replySmall
  exact ⟨_, _, u'', _, _, accepted, decoded, received_done serverLink c.request requestSmall,
    handled, rfl, rfl, rfl, returned, consumed⟩

/-- A world whose device has no hardware info of its own and 2^32 channels, and
    supports nothing else. -/
def bareWorld : World Unit where
  uuid := []
  serverVersion := ascii "0.6.0"
  sockname := []
  peername := []
  stodSize := fun _ => .error (.runtimeError (ascii "stod"))
  stod := fun _ => .error (.runtimeError (ascii "stod"))
  enumerate := fun _ w => (.ok [], w)
  make := fun _ w => (.ok 0, w)
  unmake := fun _ w => w
  method := fun _ c w =>
    match c with
    | .getHardwareInfo => (.ok .empty, w)
    | .getNumChannels _ => (.ok (4294967296 : UInt64), w)
    | _ => (.error (.runtimeError (ascii "not supported")), w)
  query := fun _ _ w => (.error (.runtimeError (ascii "not supported")), w)
  setupStream := fun _ _ _ _ _ w => (.ok (), w)
  closeStream := fun _ _ w => (.ok (), w)
  activateStream := fun _ _ _ _ _ w => (.ok 0, w)
  deactivateStream := fun _ _ _ _ w => (.ok 0, w)
  bind := fun url w => (.ok url, w)
  connect := fun _ w => (.ok (), w)
  accept := fun w => (true, w)
  lastErrorMsg := fun _ => []
  sendPort := fun _ w => (.ok (), w)
  allocate := fun _ w => (.ok (), w)
  startThread := fun w => (.ok (), w)

def madeServer {W : Type} (world : W) : Server W := { Server.init world with dev := some 0 }

theorem getAntenna_transparent :
    (DeviceCall.getAntenna 0 1).Fits ∧ ∃ (u u' u'' : Unpacker) (s' : Server Unit) (reply : Bytes),
      recv idealLink (frame (DeviceCall.getAntenna 0 1).request ++ []) = some (.ok u, []) ∧
      Program.run Unpacker.exec Unpack.request u = (.ok (.device (.getAntenna 0 1)), u') ∧
      u'.done = true ∧ Handle.handleOnce bareWorld u (madeServer ()) = (.ok true, s') ∧
      s'.calls = [] ++ [.getAntenna 0 1] ∧ s'.world = () ∧ s'.sent = [] ++ [reply] ∧
      (DeviceCall.getAntenna 0 1).awaitReply idealLink (frame reply ++ []) =
        some (.error (.runtimeError (ascii "RemoteError: not supported")), some u'', []) ∧
      u''.done = true := by
  have fits : (DeviceCall.getAntenna 0 1).Fits :=
    ⟨⟨by decide, by decide⟩, show (1 : UInt64).toNat < 2 ^ 31 by decide⟩
  have short : TextFits (Exn.runtimeError (ascii "not supported")).what :=
    show List.length _ < 2 ^ 31 by decide
  refine ⟨fits, ?_⟩
  exact remoteCall_transparent bareWorld (madeServer ()) 0 rfl idealLink idealLink
    (by simp [idealLink]) (by simp [idealLink]) [] [] (.getAntenna 0 1) fits short (by decide)
    (by decide)

/-- The call ends at the client exactly as it ended on the device. -/
def ReturnsAsGiven {W : Type} (env : World W) (s : Server W) (dev : DevicePtr) (c : DeviceCall) :
    Prop :=
  ∃ (u : Unpacker) (s' : Server W) (reply : Bytes) (u' : Option Unpacker),
    recv idealLink (frame c.request ++ []) = some (.ok u, []) ∧
    Handle.handleOnce env u s = (.ok true, s') ∧ s'.sent = s.sent ++ [reply] ∧
    c.awaitReply idealLink (frame reply ++ []) = some ((env.method dev c s.world).1, u', [])

theorem not_returnsAsGiven {W : Type} {env : World W} {s : Server W} {dev : DevicePtr}
    {c : DeviceCall} (connected : s.dev = some dev) (arguments : c.Fits)
    (small : (frame c.request).length < 2 ^ 32) {seen : Except Exn c.Result}
    {left : Option Unpacker} (ended : c.awaitReply idealLink
      (frame (c.reply env.serverVersion (env.method dev c s.world).1) ++ []) =
        some (seen, left, []))
    (differs : seen ≠ (env.method dev c s.world).1) : ¬ ReturnsAsGiven env s dev c := by
  rintro ⟨u, s', reply, u', accepted, handled, sent, returned⟩
  have works : ∀ n, (idealLink.grants n).isSome := by simp [idealLink]
  rw [recv_request idealLink works [] c small] at accepted
  simp only [Option.some.injEq, Prod.mk.injEq, Except.ok.injEq, and_true] at accepted
  subst accepted
  have decoded := request_decodes c arguments _ (received_holds idealLink c.request small)
  rw [handleOnce_device env connected rfl decoded] at handled
  simp only [Prod.mk.injEq, true_and] at handled
  subst handled
  simp only [List.append_cancel_left_eq, List.cons.injEq, and_true] at sent
  subst sent
  rw [ended] at returned
  simp only [Option.some.injEq, Prod.mk.injEq] at returned
  exact differs returned.1

/-- The hardware info comes back with an entry the device did not give, and 2^32
    channels come back as none. -/
theorem results_not_as_given :
    ¬ ReturnsAsGiven bareWorld (madeServer ()) 0 .getHardwareInfo ∧
      ¬ ReturnsAsGiven bareWorld (madeServer ()) 0 (.getNumChannels 0) := by
  have works : ∀ n, (idealLink.grants n).isSome := by simp [idealLink]
  constructor
  · have entries : (OrdMap.insert (.empty : Kwargs) (ascii "remote:version")
        bareWorld.serverVersion).entries = [(ascii "remote:version", bareWorld.serverVersion)] := rfl
    have fits : KwargsFit (OrdMap.insert .empty (ascii "remote:version") bareWorld.serverVersion) := by
      unfold KwargsFit ListFits TextFits
      rw [entries]
      simp only [List.mem_singleton, forall_eq]
      decide
    obtain ⟨u, ended, _⟩ := awaitReply_outcome idealLink works [] bareWorld.serverVersion
      .getHardwareInfo (.ok .empty) fits (by decide)
    refine not_returnsAsGiven rfl trivial (by decide) ended (fun same => ?_)
    have gone : OrdMap.insert (.empty : Kwargs) (ascii "remote:version") bareWorld.serverVersion =
        .empty := Except.ok.inj same
    rw [gone] at entries
    exact absurd entries (by simp [OrdMap.empty])
  · have fits : DeviceCall.Fits (.getNumChannels 0) := ⟨by decide, by decide⟩
    have small : (frame (packCount 4294967296)).length < 2 ^ 32 := by decide
    have decoded := Decodes.afterRecv SoapyRPCVersion (.int (intOfSize 4294967296))
      (Decodes.sizeCast 4294967296) _ (received_holds idealLink _ small)
    have ended := awaitReply_ended idealLink works [] _ (List.cons_ne_nil _ _) small
      (.getNumChannels 0) decoded
    refine not_returnsAsGiven rfl fits (by decide) ended (fun same => ?_)
    have wrapped : Unpack.toSize (intOfSize 4294967296) = 4294967296 := Except.ok.inj same
    exact absurd wrapped (by decide)

end Soapy.Remote
