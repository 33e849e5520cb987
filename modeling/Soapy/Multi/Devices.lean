import Soapy.Lib.Program
import Soapy.Multi.Names
import Soapy.Remote.Defs

/-! # One device made of several

SoapyMultiSDR lines up the channels of its devices and forwards each call. A method is a
program whose instructions are calls of the methods of single devices.
-/

namespace Soapy.Multi

open Lib
open Soapy.Remote (Complex128 Kwargs Range ArgInfo)

/-- The methods with a direction and a channel, and what else they take. An overload has a
    name of its own. -/
inductive ChannelMethod where
  | getChannelInfo
  | getFullDuplex
  | getStreamFormats
  | getNativeStreamFormat
  | getStreamArgsInfo
  | listAntennas
  | setAntenna (name : Bytes)
  | getAntenna
  | hasDCOffsetMode
  | setDCOffsetMode (automatic : Bool)
  | getDCOffsetMode
  | hasDCOffset
  | setDCOffset (offset : Complex128)
  | getDCOffset
  | hasIQBalance
  | setIQBalance (balance : Complex128)
  | getIQBalance
  | hasFrequencyCorrection
  | setFrequencyCorrection (value : Double)
  | getFrequencyCorrection
  | listGains
  | hasGainMode
  | setGainMode (automatic : Bool)
  | getGainMode
  | setGain (value : Double)
  | setGainElement (name : Bytes) (value : Double)
  | getGain
  | getGainElement (name : Bytes)
  | getGainRange
  | getGainRangeElement (name : Bytes)
  | setFrequency (frequency : Double) (args : Kwargs)
  | setFrequencyComponent (name : Bytes) (frequency : Double) (args : Kwargs)
  | getFrequency
  | getFrequencyComponent (name : Bytes)
  | listFrequencies
  | getFrequencyRange
  | getFrequencyRangeComponent (name : Bytes)
  | getFrequencyArgsInfo
  | setSampleRate (rate : Double)
  | getSampleRate
  | listSampleRates
  | getSampleRateRange
  | setBandwidth (bw : Double)
  | getBandwidth
  | listBandwidths
  | getBandwidthRange
  | listChannelSensors
  | getChannelSensorInfo (name : Bytes)
  | readChannelSensor (name : Bytes)
  | getChannelSettingInfo
  | writeChannelSetting (key value : Bytes)
  | readChannelSetting (key : Bytes)

abbrev ChannelMethod.Result : ChannelMethod → Type
  | .getChannelInfo => Kwargs
  | .getFullDuplex | .hasDCOffsetMode | .getDCOffsetMode | .hasDCOffset | .hasIQBalance
  | .hasFrequencyCorrection | .hasGainMode | .getGainMode => Bool
  | .setAntenna _ | .setDCOffsetMode _ | .setDCOffset _ | .setIQBalance _
  | .setFrequencyCorrection _ | .setGainMode _ | .setGain _ | .setGainElement _ _
  | .setFrequency _ _ | .setFrequencyComponent _ _ _ | .setSampleRate _ | .setBandwidth _
  | .writeChannelSetting _ _ => Unit
  | .getStreamFormats | .listAntennas | .listGains | .listFrequencies
  | .listChannelSensors => List Bytes
  | .getNativeStreamFormat => Bytes × Double
  | .getAntenna | .readChannelSensor _ | .readChannelSetting _ => Bytes
  | .getDCOffset | .getIQBalance => Complex128
  | .getFrequencyCorrection | .getGain | .getGainElement _ | .getFrequency
  | .getFrequencyComponent _ | .getSampleRate | .getBandwidth => Double
  | .getGainRange | .getGainRangeElement _ => Range
  | .getFrequencyRange | .getFrequencyRangeComponent _ | .getSampleRateRange
  | .getBandwidthRange => List Range
  | .listSampleRates | .listBandwidths => List Double
  | .getChannelSensorInfo _ => ArgInfo
  | .getStreamArgsInfo | .getFrequencyArgsInfo | .getChannelSettingInfo => List ArgInfo

/-- The methods with an indexed name, and what else they take. -/
inductive NamedMethod where
  | getSensorInfo
  | readSensor
  | writeRegister (addr value : UInt32)
  | readRegister (addr : UInt32)
  | writeSetting (value : Bytes)
  | readSetting
  | writeGPIO (value : UInt32)
  | writeGPIOMasked (value mask : UInt32)
  | readGPIO
  | writeGPIODir (dir : UInt32)
  | writeGPIODirMasked (dir mask : UInt32)
  | readGPIODir
  | writeUART (data : Bytes)
  | readUART (timeoutUs : Int64)

abbrev NamedMethod.Result : NamedMethod → Type
  | .getSensorInfo => ArgInfo
  | .readSensor | .readSetting | .readUART _ => Bytes
  | .writeRegister _ _ | .writeSetting _ | NamedMethod.writeGPIO _ | .writeGPIOMasked _ _
  | .writeGPIODir _ | .writeGPIODirMasked _ _ | .writeUART _ => Unit
  | .readRegister _ | NamedMethod.readGPIO | .readGPIODir => UInt32

/-- The values that are joined into one text. -/
inductive Setting where
  | clockSource
  | timeSource
  | frontendMapping (direction : Int32)
deriving DecidableEq

inductive NameList where
  | listSensors
  | listRegisterInterfaces
  | listGPIOBanks
  | listUARTs

inductive Call where
  | channel (method : ChannelMethod) (direction : Int32) (channel : Nat)
  | named (method : NamedMethod) (name : Bytes)
  | get (setting : Setting)
  | set (setting : Setting) (value : Bytes)
  | list (names : NameList)
  | getNumChannels (direction : Int32)

abbrev Call.Result : Call → Type
  | .channel method _ _ => method.Result
  | .named method _ => method.Result
  | .get _ => Bytes
  | .set _ _ => Unit
  | .list _ => List Bytes
  | .getNumChannels _ => Nat

abbrev Answer (call : Nat × Call) : Type := call.2.Result

/-- A method of SoapyMultiSDR. Its instructions are calls of the devices, by their index. -/
abbrev Method (α : Type) : Type := Program (Nat × Call) Answer Stop α

def call (device : Nat) (c : Call) : Method c.Result := Program.call (device, c)

def SOAPY_SDR_TX : Int32 := 0

def SOAPY_SDR_RX : Int32 := 1

/-- The channel maps hold the local channel and the index of the device. -/
structure SoapyMultiSDR where
  devices : Nat
  rxChanMap : List (Nat × Nat)
  txChanMap : List (Nat × Nat)

/-- What the loops of `reloadChanMaps` push for one direction, from device `device` on. -/
def chanMap (device : Nat) : List Nat → List (Nat × Nat)
  | [] => []
  | numChannels :: rest =>
    (List.range numChannels).map (fun ch => (ch, device)) ++ chanMap (device + 1) rest

/-- The object behind `reloadChanMaps`, for the numbers of receive and transmit channels. -/
def SoapyMultiSDR.ofCounts (counts : List (Nat × Nat)) : SoapyMultiSDR :=
  { devices := counts.length
    rxChanMap := chanMap 0 (counts.map Prod.fst)
    txChanMap := chanMap 0 (counts.map Prod.snd) }

/-- A device answers alike each time a loop asks for its number of channels, so it is asked once. -/
def numChannels : Nat → Nat → Method (List (Nat × Nat))
  | _, 0 => return []
  | device, left + 1 => do
    let rx ← call device (.getNumChannels SOAPY_SDR_RX)
    let tx ← call device (.getNumChannels SOAPY_SDR_TX)
    let rest ← numChannels (device + 1) left
    return (rx, tx) :: rest

namespace SoapyMultiSDR

variable (s : SoapyMultiSDR)

def reloadChanMaps : Method SoapyMultiSDR := do
  let counts ← numChannels 0 s.devices
  return ofCounts counts

def chanMapOf (direction : Int32) : List (Nat × Nat) :=
  if direction = SOAPY_SDR_RX then s.rxChanMap else s.txChanMap

def getNumChannels (direction : Int32) : Nat := (s.chanMapOf direction).length

def getDevice (direction : Int32) (channel : Nat) : Method (Nat × Nat) :=
  match (s.chanMapOf direction)[channel]? with
  | some pair => return pair
  | none => .fail .out_of_range

/-- `_devices[index]`. -/
def deviceAt (index : Nat) : Method Nat :=
  if index < s.devices then return index else .fail .undefined

def onChannel (method : ChannelMethod) (direction : Int32) (channel : Nat) :
    Method method.Result := do
  let (localChannel, device) ← s.getDevice direction channel
  call device (.channel method direction localChannel)

/-- The loop over the devices from `device` on, of which there are `left`. -/
def channelInfos (direction : Int32) (channel : Nat) : Nat → Nat → Kwargs → Method Kwargs
  | _, 0, result => return result
  | device, left + 1, result => do
    let info ← call device (.channel .getChannelInfo direction channel)
    channelInfos direction channel (device + 1) left
      (info.entries.foldl
        (fun result pair => result.insert (toIndexedName pair.1 device) pair.2) result)

def getChannelInfo (direction : Int32) (channel : Nat) : Method Kwargs :=
  channelInfos direction channel 0 s.devices .empty

def getFullDuplex (direction : Int32) (channel : Nat) : Method Bool :=
  s.onChannel .getFullDuplex direction channel

def getStreamFormats (direction : Int32) (channel : Nat) : Method (List Bytes) :=
  s.onChannel .getStreamFormats direction channel

def getNativeStreamFormat (direction : Int32) (channel : Nat) : Method (Bytes × Double) :=
  s.onChannel .getNativeStreamFormat direction channel

def getStreamArgsInfo (direction : Int32) (channel : Nat) : Method (List ArgInfo) :=
  s.onChannel .getStreamArgsInfo direction channel

def listAntennas (direction : Int32) (channel : Nat) : Method (List Bytes) :=
  s.onChannel .listAntennas direction channel

def setAntenna (direction : Int32) (channel : Nat) (name : Bytes) : Method Unit :=
  s.onChannel (.setAntenna name) direction channel

def getAntenna (direction : Int32) (channel : Nat) : Method Bytes :=
  s.onChannel .getAntenna direction channel

def hasDCOffsetMode (direction : Int32) (channel : Nat) : Method Bool :=
  s.onChannel .hasDCOffsetMode direction channel

def setDCOffsetMode (direction : Int32) (channel : Nat) (automatic : Bool) : Method Unit :=
  s.onChannel (.setDCOffsetMode automatic) direction channel

def getDCOffsetMode (direction : Int32) (channel : Nat) : Method Bool :=
  s.onChannel .getDCOffsetMode direction channel

def hasDCOffset (direction : Int32) (channel : Nat) : Method Bool :=
  s.onChannel .hasDCOffset direction channel

def setDCOffset (direction : Int32) (channel : Nat) (offset : Complex128) : Method Unit :=
  s.onChannel (.setDCOffset offset) direction channel

def getDCOffset (direction : Int32) (channel : Nat) : Method Complex128 :=
  s.onChannel .getDCOffset direction channel

def hasIQBalance (direction : Int32) (channel : Nat) : Method Bool :=
  s.onChannel .hasIQBalance direction channel

def setIQBalance (direction : Int32) (channel : Nat) (balance : Complex128) : Method Unit :=
  s.onChannel (.setIQBalance balance) direction channel

def getIQBalance (direction : Int32) (channel : Nat) : Method Complex128 :=
  s.onChannel .getIQBalance direction channel

def hasFrequencyCorrection (direction : Int32) (channel : Nat) : Method Bool :=
  s.onChannel .hasFrequencyCorrection direction channel

def setFrequencyCorrection (direction : Int32) (channel : Nat) (value : Double) : Method Unit :=
  s.onChannel (.setFrequencyCorrection value) direction channel

def getFrequencyCorrection (direction : Int32) (channel : Nat) : Method Double :=
  s.onChannel .getFrequencyCorrection direction channel

def listGains (direction : Int32) (channel : Nat) : Method (List Bytes) :=
  s.onChannel .listGains direction channel

def hasGainMode (direction : Int32) (channel : Nat) : Method Bool :=
  s.onChannel .hasGainMode direction channel

def setGainMode (direction : Int32) (channel : Nat) (automatic : Bool) : Method Unit :=
  s.onChannel (.setGainMode automatic) direction channel

def getGainMode (direction : Int32) (channel : Nat) : Method Bool :=
  s.onChannel .getGainMode direction channel

def setGain (direction : Int32) (channel : Nat) (value : Double) : Method Unit :=
  s.onChannel (.setGain value) direction channel

def setGainElement (direction : Int32) (channel : Nat) (name : Bytes) (value : Double) :
    Method Unit :=
  s.onChannel (.setGainElement name value) direction channel

def getGain (direction : Int32) (channel : Nat) : Method Double :=
  s.onChannel .getGain direction channel

def getGainElement (direction : Int32) (channel : Nat) (name : Bytes) : Method Double :=
  s.onChannel (.getGainElement name) direction channel

def getGainRange (direction : Int32) (channel : Nat) : Method Range :=
  s.onChannel .getGainRange direction channel

def getGainRangeElement (direction : Int32) (channel : Nat) (name : Bytes) : Method Range :=
  s.onChannel (.getGainRangeElement name) direction channel

def setFrequency (direction : Int32) (channel : Nat) (frequency : Double) (args : Kwargs) :
    Method Unit :=
  s.onChannel (.setFrequency frequency args) direction channel

def setFrequencyComponent (direction : Int32) (channel : Nat) (name : Bytes)
    (frequency : Double) (args : Kwargs) : Method Unit :=
  s.onChannel (.setFrequencyComponent name frequency args) direction channel

def getFrequency (direction : Int32) (channel : Nat) : Method Double :=
  s.onChannel .getFrequency direction channel

def getFrequencyComponent (direction : Int32) (channel : Nat) (name : Bytes) : Method Double :=
  s.onChannel (.getFrequencyComponent name) direction channel

def listFrequencies (direction : Int32) (channel : Nat) : Method (List Bytes) :=
  s.onChannel .listFrequencies direction channel

def getFrequencyRange (direction : Int32) (channel : Nat) : Method (List Range) :=
  s.onChannel .getFrequencyRange direction channel

def getFrequencyRangeComponent (direction : Int32) (channel : Nat) (name : Bytes) :
    Method (List Range) :=
  s.onChannel (.getFrequencyRangeComponent name) direction channel

def getFrequencyArgsInfo (direction : Int32) (channel : Nat) : Method (List ArgInfo) :=
  s.onChannel .getFrequencyArgsInfo direction channel

def setSampleRate (direction : Int32) (channel : Nat) (rate : Double) : Method Unit :=
  s.onChannel (.setSampleRate rate) direction channel

def getSampleRate (direction : Int32) (channel : Nat) : Method Double :=
  s.onChannel .getSampleRate direction channel

def listSampleRates (direction : Int32) (channel : Nat) : Method (List Double) :=
  s.onChannel .listSampleRates direction channel

def getSampleRateRange (direction : Int32) (channel : Nat) : Method (List Range) :=
  s.onChannel .getSampleRateRange direction channel

def setBandwidth (direction : Int32) (channel : Nat) (bw : Double) : Method Unit :=
  s.onChannel (.setBandwidth bw) direction channel

def getBandwidth (direction : Int32) (channel : Nat) : Method Double :=
  s.onChannel .getBandwidth direction channel

def listBandwidths (direction : Int32) (channel : Nat) : Method (List Double) :=
  s.onChannel .listBandwidths direction channel

def getBandwidthRange (direction : Int32) (channel : Nat) : Method (List Range) :=
  s.onChannel .getBandwidthRange direction channel

def listChannelSensors (direction : Int32) (channel : Nat) : Method (List Bytes) :=
  s.onChannel .listChannelSensors direction channel

def getChannelSensorInfo (direction : Int32) (channel : Nat) (name : Bytes) : Method ArgInfo :=
  s.onChannel (.getChannelSensorInfo name) direction channel

def readChannelSensor (direction : Int32) (channel : Nat) (name : Bytes) : Method Bytes :=
  s.onChannel (.readChannelSensor name) direction channel

def getChannelSettingInfo (direction : Int32) (channel : Nat) : Method (List ArgInfo) :=
  s.onChannel .getChannelSettingInfo direction channel

def writeChannelSetting (direction : Int32) (channel : Nat) (key value : Bytes) : Method Unit :=
  s.onChannel (.writeChannelSetting key value) direction channel

def readChannelSetting (direction : Int32) (channel : Nat) (key : Bytes) : Method Bytes :=
  s.onChannel (.readChannelSetting key) direction channel

/-- `splitIndexedName` in a method. -/
def split (name : Bytes) : Method (Bytes × Nat) :=
  match splitIndexedName name with
  | .ok pair => return pair
  | .error e => .fail e

def onName (method : NamedMethod) (name : Bytes) : Method method.Result := do
  let (localName, index) ← split name
  let device ← s.deviceAt index
  call device (.named method localName)

def getSensorInfo (name : Bytes) : Method ArgInfo := s.onName .getSensorInfo name

def readSensor (name : Bytes) : Method Bytes := s.onName .readSensor name

def writeRegister (name : Bytes) (addr value : UInt32) : Method Unit :=
  s.onName (.writeRegister addr value) name

def readRegister (name : Bytes) (addr : UInt32) : Method UInt32 :=
  s.onName (.readRegister addr) name

def writeSetting (key : Bytes) (value : Bytes) : Method Unit := s.onName (.writeSetting value) key

def readSetting (key : Bytes) : Method Bytes := s.onName .readSetting key

def writeGPIO (bank : Bytes) (value : UInt32) : Method Unit :=
  s.onName ( NamedMethod.writeGPIO value) bank

def writeGPIOMasked (bank : Bytes) (value mask : UInt32) : Method Unit :=
  s.onName (.writeGPIOMasked value mask) bank

def readGPIO (bank : Bytes) : Method UInt32 := s.onName NamedMethod.readGPIO bank

def writeGPIODir (bank : Bytes) (dir : UInt32) : Method Unit := s.onName (.writeGPIODir dir) bank

def writeGPIODirMasked (bank : Bytes) (dir mask : UInt32) : Method Unit :=
  s.onName (.writeGPIODirMasked dir mask) bank

def readGPIODir (bank : Bytes) : Method UInt32 := s.onName .readGPIODir bank

def writeUART (which : Bytes) (data : Bytes) : Method Unit := s.onName (.writeUART data) which

def readUART (which : Bytes) (timeoutUs : Int64) : Method Bytes :=
  s.onName (.readUART timeoutUs) which

/-- The loop that asks the devices from `device` on, of which there are `left`. -/
def settings (setting : Setting) : Nat → Nat → Method (List Bytes)
  | _, 0 => return []
  | device, left + 1 => do
    let value ← call device (.get setting)
    let rest ← settings setting (device + 1) left
    return value :: rest

def getJoined (setting : Setting) : Method Bytes := do
  let values ← settings setting 0 s.devices
  return csvJoin values

/-- The loop that sets the devices from `device` on, of which there are `left`. -/
def setEach (setting : Setting) : Nat → Nat → List Bytes → Method Unit
  | device, left + 1, value :: rest => do
    call device (.set setting value)
    setEach setting (device + 1) left rest
  | _, _, _ => return ()

def setJoined (setting : Setting) (values : Bytes) : Method Unit :=
  setEach setting 0 s.devices (csvSplit values)

def getClockSource : Method Bytes := s.getJoined .clockSource

def setClockSource (source : Bytes) : Method Unit := s.setJoined .clockSource source

def getTimeSource : Method Bytes := s.getJoined .timeSource

def setTimeSource (source : Bytes) : Method Unit := s.setJoined .timeSource source

def getFrontendMapping (direction : Int32) : Method Bytes :=
  s.getJoined (.frontendMapping direction)

/-- The object behind the call. -/
def setFrontendMapping (direction : Int32) (mapping : Bytes) : Method SoapyMultiSDR := do
  s.setJoined (.frontendMapping direction) mapping
  s.reloadChanMaps

/-- The loop over the devices from `device` on, of which there are `left`. -/
def indexedNames (names : NameList) : Nat → Nat → Method (List Bytes)
  | _, 0 => return []
  | device, left + 1 => do
    let here ← call device (.list names)
    let rest ← indexedNames names (device + 1) left
    return here.map (toIndexedName · device) ++ rest

def listSensors : Method (List Bytes) := indexedNames .listSensors 0 s.devices

def listRegisterInterfaces : Method (List Bytes) := indexedNames .listRegisterInterfaces 0 s.devices

def listGPIOBanks : Method (List Bytes) := indexedNames .listGPIOBanks 0 s.devices

def listUARTs : Method (List Bytes) := indexedNames .listUARTs 0 s.devices

end SoapyMultiSDR

end Soapy.Multi
