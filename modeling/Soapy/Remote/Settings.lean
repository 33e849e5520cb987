import Soapy.Remote.Unpacker

/-! # The device methods of SoapyRemoteDevice

A call of a `SoapySDR::Device` method with its arguments is a value of
`DeviceCall`; overloads carry the word that tells them apart. The client stub of
a method packs the number of the call and the arguments, and unpacks the result
from the reply.

Arguments are cast before they are packed: a direction to a char, a `size_t`, an
unsigned or a long to an int. The casts keep the low bits.
-/

namespace Soapy.Remote

open Lib

/-- The methods of client/Settings.cpp with their arguments. -/
inductive DeviceCall where
  | getDriverKey
  | getHardwareKey
  | getHardwareInfo
  | setFrontendMapping (direction : Int32) (mapping : Bytes)
  | getFrontendMapping (direction : Int32)
  | getNumChannels (direction : Int32)
  | getChannelInfo (direction : Int32) (channel : UInt64)
  | getFullDuplex (direction : Int32) (channel : UInt64)
  | listAntennas (direction : Int32) (channel : UInt64)
  | setAntenna (direction : Int32) (channel : UInt64) (name : Bytes)
  | getAntenna (direction : Int32) (channel : UInt64)
  | hasDCOffsetMode (direction : Int32) (channel : UInt64)
  | setDCOffsetMode (direction : Int32) (channel : UInt64) (automatic : Bool)
  | getDCOffsetMode (direction : Int32) (channel : UInt64)
  | hasDCOffset (direction : Int32) (channel : UInt64)
  | setDCOffset (direction : Int32) (channel : UInt64) (offset : Complex128)
  | getDCOffset (direction : Int32) (channel : UInt64)
  | hasIQBalance (direction : Int32) (channel : UInt64)
  | setIQBalance (direction : Int32) (channel : UInt64) (balance : Complex128)
  | getIQBalance (direction : Int32) (channel : UInt64)
  | hasFrequencyCorrection (direction : Int32) (channel : UInt64)
  | hasIQBalanceMode (direction : Int32) (channel : UInt64)
  | setIQBalanceMode (direction : Int32) (channel : UInt64) (automatic : Bool)
  | getIQBalanceMode (direction : Int32) (channel : UInt64)
  | setFrequencyCorrection (direction : Int32) (channel : UInt64) (value : Double)
  | getFrequencyCorrection (direction : Int32) (channel : UInt64)
  | listGains (direction : Int32) (channel : UInt64)
  | hasGainMode (direction : Int32) (channel : UInt64)
  | setGainMode (direction : Int32) (channel : UInt64) (automatic : Bool)
  | getGainMode (direction : Int32) (channel : UInt64)
  | setGain (direction : Int32) (channel : UInt64) (value : Double)
  | setGainElement (direction : Int32) (channel : UInt64) (name : Bytes) (value : Double)
  | getGain (direction : Int32) (channel : UInt64)
  | getGainElement (direction : Int32) (channel : UInt64) (name : Bytes)
  | getGainRange (direction : Int32) (channel : UInt64)
  | getGainRangeElement (direction : Int32) (channel : UInt64) (name : Bytes)
  | setFrequency (direction : Int32) (channel : UInt64) (frequency : Double) (args : Kwargs)
  | setFrequencyComponent (direction : Int32) (channel : UInt64) (name : Bytes)
      (frequency : Double) (args : Kwargs)
  | getFrequency (direction : Int32) (channel : UInt64)
  | getFrequencyComponent (direction : Int32) (channel : UInt64) (name : Bytes)
  | listFrequencies (direction : Int32) (channel : UInt64)
  | getFrequencyRange (direction : Int32) (channel : UInt64)
  | getFrequencyRangeComponent (direction : Int32) (channel : UInt64) (name : Bytes)
  | getFrequencyArgsInfo (direction : Int32) (channel : UInt64)
  | setSampleRate (direction : Int32) (channel : UInt64) (rate : Double)
  | getSampleRate (direction : Int32) (channel : UInt64)
  | listSampleRates (direction : Int32) (channel : UInt64)
  | getSampleRateRange (direction : Int32) (channel : UInt64)
  | setBandwidth (direction : Int32) (channel : UInt64) (bw : Double)
  | getBandwidth (direction : Int32) (channel : UInt64)
  | listBandwidths (direction : Int32) (channel : UInt64)
  | getBandwidthRange (direction : Int32) (channel : UInt64)
  | setMasterClockRate (rate : Double)
  | getMasterClockRate
  | getMasterClockRates
  | setReferenceClockRate (rate : Double)
  | getReferenceClockRate
  | getReferenceClockRates
  | listClockSources
  | setClockSource (source : Bytes)
  | getClockSource
  | listTimeSources
  | setTimeSource (source : Bytes)
  | getTimeSource
  | hasHardwareTime (what : Bytes)
  | getHardwareTime (what : Bytes)
  | setHardwareTime (timeNs : Int64) (what : Bytes)
  | setCommandTime (timeNs : Int64) (what : Bytes)
  | listSensors
  | getSensorInfo (name : Bytes)
  | readSensor (name : Bytes)
  | listChannelSensors (direction : Int32) (channel : UInt64)
  | getChannelSensorInfo (direction : Int32) (channel : UInt64) (name : Bytes)
  | readChannelSensor (direction : Int32) (channel : UInt64) (name : Bytes)
  | listRegisterInterfaces
  | writeRegisterNamed (name : Bytes) (addr value : UInt32)
  | readRegisterNamed (name : Bytes) (addr : UInt32)
  | writeRegister (addr value : UInt32)
  | readRegister (addr : UInt32)
  | writeRegisters (name : Bytes) (addr : UInt32) (value : List UInt32)
  | readRegisters (name : Bytes) (addr : UInt32) (length : UInt64)
  | getSettingInfo
  | writeSetting (key value : Bytes)
  | readSetting (key : Bytes)
  | getChannelSettingInfo (direction : Int32) (channel : UInt64)
  | writeChannelSetting (direction : Int32) (channel : UInt64) (key value : Bytes)
  | readChannelSetting (direction : Int32) (channel : UInt64) (key : Bytes)
  | listGPIOBanks
  | writeGPIO (bank : Bytes) (value : UInt32)
  | writeGPIOMasked (bank : Bytes) (value mask : UInt32)
  | readGPIO (bank : Bytes)
  | writeGPIODir (bank : Bytes) (dir : UInt32)
  | writeGPIODirMasked (bank : Bytes) (dir mask : UInt32)
  | readGPIODir (bank : Bytes)
  | writeI2C (addr : Int32) (data : Bytes)
  | readI2C (addr : Int32) (numBytes : UInt64)
  | transactSPI (addr : Int32) (data : UInt32) (numBits : UInt64)
  | listUARTs
  | writeUART (which data : Bytes)
  | readUART (which : Bytes) (timeoutUs : Int64)

inductive ReturnType where
  | void | bool | size | unsigned | longLong | double | complex | string | kwargs | range | argInfo
  | stringList | doubleList | unsignedList | rangeList | argInfoList
  deriving DecidableEq

abbrev ReturnType.Carrier : ReturnType → Type
  | .void => Unit
  | .bool => Bool
  | .size => UInt64
  | .unsigned => UInt32
  | .longLong => Int64
  | .double => Double
  | .complex => Complex128
  | .string => Bytes
  | .kwargs => Kwargs
  | .range => Range
  | .argInfo => ArgInfo
  | .stringList => List Bytes
  | .doubleList => List Double
  | .unsignedList => List UInt32
  | .rangeList => List Range
  | .argInfoList => List ArgInfo

namespace DeviceCall

/-- The declarations of SoapySDR/Device.hpp, which the stubs override. -/
def returnType : DeviceCall → ReturnType
  | setFrontendMapping .. | setAntenna .. | setDCOffsetMode .. | setDCOffset .. | setIQBalance ..
  | setIQBalanceMode .. | setFrequencyCorrection .. | setGainMode .. | setGain ..
  | setGainElement .. | setFrequency .. | setFrequencyComponent .. | setSampleRate ..
  | setBandwidth .. | setMasterClockRate .. | setReferenceClockRate .. | setClockSource ..
  | setTimeSource .. | setHardwareTime .. | setCommandTime .. | writeRegisterNamed ..
  | writeRegister .. | writeRegisters .. | writeSetting .. | writeChannelSetting .. | writeGPIO ..
  | writeGPIOMasked .. | writeGPIODir .. | writeGPIODirMasked .. | writeI2C .. | writeUART .. =>
    .void
  | getFullDuplex .. | hasDCOffsetMode .. | getDCOffsetMode .. | hasDCOffset .. | hasIQBalance ..
  | hasFrequencyCorrection .. | hasIQBalanceMode .. | getIQBalanceMode .. | hasGainMode ..
  | getGainMode .. | hasHardwareTime .. => .bool
  | getNumChannels .. => .size
  | readRegisterNamed .. | readRegister .. | readGPIO .. | readGPIODir .. | transactSPI .. =>
    .unsigned
  | getHardwareTime .. => .longLong
  | getFrequencyCorrection .. | getGain .. | getGainElement .. | getFrequency ..
  | getFrequencyComponent .. | getSampleRate .. | getBandwidth .. | getMasterClockRate
  | getReferenceClockRate => .double
  | getDCOffset .. | getIQBalance .. => .complex
  | getDriverKey | getHardwareKey | getFrontendMapping .. | getAntenna .. | getClockSource
  | getTimeSource | readSensor .. | readChannelSensor .. | readSetting .. | readChannelSetting ..
  | readI2C .. | readUART .. => .string
  | getHardwareInfo | getChannelInfo .. => .kwargs
  | getGainRange .. | getGainRangeElement .. => .range
  | getSensorInfo .. | getChannelSensorInfo .. => .argInfo
  | listAntennas .. | listGains .. | listFrequencies .. | listClockSources | listTimeSources
  | listSensors | listChannelSensors .. | listRegisterInterfaces | listGPIOBanks | listUARTs =>
    .stringList
  | listSampleRates .. | listBandwidths .. => .doubleList
  | readRegisters .. => .unsignedList
  | getFrequencyRange .. | getFrequencyRangeComponent .. | getSampleRateRange ..
  | getBandwidthRange .. | getMasterClockRates | getReferenceClockRates => .rangeList
  | getFrequencyArgsInfo .. | getSettingInfo | getChannelSettingInfo .. => .argInfoList

abbrev Result (c : DeviceCall) : Type := c.returnType.Carrier

end DeviceCall

/-- `packer & char(direction)`. -/
def packDirection (direction : Int32) : Bytes := packChar direction.toInt8

/-- `int(n)` of a `size_t`. -/
def intOfSize (n : UInt64) : Int32 := Int32.ofNat n.toNat

/-- `packer & int(n)` of a `size_t`: a channel, a length or a number of bits. -/
def packCount (n : UInt64) : Bytes := packInt (intOfSize n)

/-- `packer & int(word)` of an unsigned. -/
def packWord (word : UInt32) : Bytes := packInt word.toInt32

namespace DeviceCall

def packRequest : DeviceCall → RemoteCalls × Bytes
  | getDriverKey => (.GET_DRIVER_KEY, [])
  | getHardwareKey => (.GET_HARDWARE_KEY, [])
  | getHardwareInfo => (.GET_HARDWARE_INFO, [])
  | setFrontendMapping direction mapping =>
    (.SET_FRONTEND_MAPPING, packDirection direction ++ packString mapping)
  | getFrontendMapping direction => (.GET_FRONTEND_MAPPING, packDirection direction)
  | getNumChannels direction => (.GET_NUM_CHANNELS, packDirection direction)
  | getChannelInfo direction channel =>
    (.GET_CHANNEL_INFO, packDirection direction ++ packCount channel)
  | getFullDuplex direction channel =>
    (.GET_FULL_DUPLEX, packDirection direction ++ packCount channel)
  | listAntennas direction channel =>
    (.LIST_ANTENNAS, packDirection direction ++ packCount channel)
  | setAntenna direction channel name =>
    (.SET_ANTENNA, packDirection direction ++ packCount channel ++ packString name)
  | getAntenna direction channel => (.GET_ANTENNA, packDirection direction ++ packCount channel)
  | hasDCOffsetMode direction channel =>
    (.HAS_DC_OFFSET_MODE, packDirection direction ++ packCount channel)
  | setDCOffsetMode direction channel automatic =>
    (.SET_DC_OFFSET_MODE, packDirection direction ++ packCount channel ++ packBool automatic)
  | getDCOffsetMode direction channel =>
    (.GET_DC_OFFSET_MODE, packDirection direction ++ packCount channel)
  | hasDCOffset direction channel =>
    (.HAS_DC_OFFSET, packDirection direction ++ packCount channel)
  | setDCOffset direction channel offset =>
    (.SET_DC_OFFSET, packDirection direction ++ packCount channel ++ packComplex offset)
  | getDCOffset direction channel =>
    (.GET_DC_OFFSET, packDirection direction ++ packCount channel)
  | hasIQBalance direction channel =>
    (.HAS_IQ_BALANCE_MODE, packDirection direction ++ packCount channel)
  | setIQBalance direction channel balance =>
    (.SET_IQ_BALANCE_MODE, packDirection direction ++ packCount channel ++ packComplex balance)
  | getIQBalance direction channel =>
    (.GET_IQ_BALANCE_MODE, packDirection direction ++ packCount channel)
  | hasFrequencyCorrection direction channel =>
    (.HAS_FREQUENCY_CORRECTION, packDirection direction ++ packCount channel)
  | hasIQBalanceMode direction channel =>
    (.HAS_IQ_BALANCE_MODE_AUTO, packDirection direction ++ packCount channel)
  | setIQBalanceMode direction channel automatic =>
    (.SET_IQ_BALANCE_MODE_AUTO, packDirection direction ++ packCount channel ++ packBool automatic)
  | getIQBalanceMode direction channel =>
    (.GET_IQ_BALANCE_MODE_AUTO, packDirection direction ++ packCount channel)
  | setFrequencyCorrection direction channel value =>
    (.SET_FREQUENCY_CORRECTION, packDirection direction ++ packCount channel ++ packDouble value)
  | getFrequencyCorrection direction channel =>
    (.GET_FREQUENCY_CORRECTION, packDirection direction ++ packCount channel)
  | listGains direction channel => (.LIST_GAINS, packDirection direction ++ packCount channel)
  | hasGainMode direction channel =>
    (.HAS_GAIN_MODE, packDirection direction ++ packCount channel)
  | setGainMode direction channel automatic =>
    (.SET_GAIN_MODE, packDirection direction ++ packCount channel ++ packBool automatic)
  | getGainMode direction channel =>
    (.GET_GAIN_MODE, packDirection direction ++ packCount channel)
  | setGain direction channel value =>
    (.SET_GAIN, packDirection direction ++ packCount channel ++ packDouble value)
  | setGainElement direction channel name value =>
    (.SET_GAIN_ELEMENT,
      packDirection direction ++ packCount channel ++ packString name ++ packDouble value)
  | getGain direction channel => (.GET_GAIN, packDirection direction ++ packCount channel)
  | getGainElement direction channel name =>
    (.GET_GAIN_ELEMENT, packDirection direction ++ packCount channel ++ packString name)
  | getGainRange direction channel =>
    (.GET_GAIN_RANGE, packDirection direction ++ packCount channel)
  | getGainRangeElement direction channel name =>
    (.GET_GAIN_RANGE_ELEMENT, packDirection direction ++ packCount channel ++ packString name)
  | setFrequency direction channel frequency args =>
    (.SET_FREQUENCY,
      packDirection direction ++ packCount channel ++ packDouble frequency ++ packKwargs args)
  | setFrequencyComponent direction channel name frequency args =>
    (.SET_FREQUENCY_COMPONENT,
      packDirection direction ++ packCount channel ++ packString name ++ packDouble frequency ++
        packKwargs args)
  | getFrequency direction channel =>
    (.GET_FREQUENCY, packDirection direction ++ packCount channel)
  | getFrequencyComponent direction channel name =>
    (.GET_FREQUENCY_COMPONENT, packDirection direction ++ packCount channel ++ packString name)
  | listFrequencies direction channel =>
    (.LIST_FREQUENCIES, packDirection direction ++ packCount channel)
  | getFrequencyRange direction channel =>
    (.GET_FREQUENCY_RANGE, packDirection direction ++ packCount channel)
  | getFrequencyRangeComponent direction channel name =>
    (.GET_FREQUENCY_RANGE_COMPONENT,
      packDirection direction ++ packCount channel ++ packString name)
  | getFrequencyArgsInfo direction channel =>
    (.GET_FREQUENCY_ARGS_INFO, packDirection direction ++ packCount channel)
  | setSampleRate direction channel rate =>
    (.SET_SAMPLE_RATE, packDirection direction ++ packCount channel ++ packDouble rate)
  | getSampleRate direction channel =>
    (.GET_SAMPLE_RATE, packDirection direction ++ packCount channel)
  | listSampleRates direction channel =>
    (.LIST_SAMPLE_RATES, packDirection direction ++ packCount channel)
  | getSampleRateRange direction channel =>
    (.GET_SAMPLE_RATE_RANGE, packDirection direction ++ packCount channel)
  | setBandwidth direction channel bw =>
    (.SET_BANDWIDTH, packDirection direction ++ packCount channel ++ packDouble bw)
  | getBandwidth direction channel =>
    (.GET_BANDWIDTH, packDirection direction ++ packCount channel)
  | listBandwidths direction channel =>
    (.LIST_BANDWIDTHS, packDirection direction ++ packCount channel)
  | getBandwidthRange direction channel =>
    (.GET_BANDWIDTH_RANGE, packDirection direction ++ packCount channel)
  | setMasterClockRate rate => (.SET_MASTER_CLOCK_RATE, packDouble rate)
  | getMasterClockRate => (.GET_MASTER_CLOCK_RATE, [])
  | getMasterClockRates => (.GET_MASTER_CLOCK_RATES, [])
  | setReferenceClockRate rate => (.SET_REF_CLOCK_RATE, packDouble rate)
  | getReferenceClockRate => (.GET_REF_CLOCK_RATE, [])
  | getReferenceClockRates => (.GET_REF_CLOCK_RATES, [])
  | listClockSources => (.LIST_CLOCK_SOURCES, [])
  | setClockSource source => (.SET_CLOCK_SOURCE, packString source)
  | getClockSource => (.GET_CLOCK_SOURCE, [])
  | listTimeSources => (.LIST_TIME_SOURCES, [])
  | setTimeSource source => (.SET_TIME_SOURCE, packString source)
  | getTimeSource => (.GET_TIME_SOURCE, [])
  | hasHardwareTime what => (.HAS_HARDWARE_TIME, packString what)
  | getHardwareTime what => (.GET_HARDWARE_TIME, packString what)
  | setHardwareTime timeNs what => (.SET_HARDWARE_TIME, packLongLong timeNs ++ packString what)
  | setCommandTime timeNs what => (.SET_COMMAND_TIME, packLongLong timeNs ++ packString what)
  | listSensors => (.LIST_SENSORS, [])
  | getSensorInfo name => (.GET_SENSOR_INFO, packString name)
  | readSensor name => (.READ_SENSOR, packString name)
  | listChannelSensors direction channel =>
    (.LIST_CHANNEL_SENSORS, packDirection direction ++ packCount channel)
  | getChannelSensorInfo direction channel name =>
    (.GET_CHANNEL_SENSOR_INFO, packDirection direction ++ packCount channel ++ packString name)
  | readChannelSensor direction channel name =>
    (.READ_CHANNEL_SENSOR, packDirection direction ++ packCount channel ++ packString name)
  | listRegisterInterfaces => (.LIST_REGISTER_INTERFACES, [])
  | writeRegisterNamed name addr value =>
    (.WRITE_REGISTER_NAMED, packString name ++ packWord addr ++ packWord value)
  | readRegisterNamed name addr => (.READ_REGISTER_NAMED, packString name ++ packWord addr)
  | writeRegister addr value => (.WRITE_REGISTER, packWord addr ++ packWord value)
  | readRegister addr => (.READ_REGISTER, packWord addr)
  | writeRegisters name addr value =>
    let val := value.map UInt32.toUInt64
    (.WRITE_REGISTERS, packString name ++ packWord addr ++ packSizeList val)
  | readRegisters name addr length =>
    (.READ_REGISTERS, packString name ++ packWord addr ++ packCount length)
  | getSettingInfo => (.GET_SETTING_INFO, [])
  | writeSetting key value => (.WRITE_SETTING, packString key ++ packString value)
  | readSetting key => (.READ_SETTING, packString key)
  | getChannelSettingInfo direction channel =>
    (.GET_CHANNEL_SETTING_INFO, packDirection direction ++ packCount channel)
  | writeChannelSetting direction channel key value =>
    (.WRITE_CHANNEL_SETTING,
      packDirection direction ++ packCount channel ++ packString key ++ packString value)
  | readChannelSetting direction channel key =>
    (.READ_CHANNEL_SETTING, packDirection direction ++ packCount channel ++ packString key)
  | listGPIOBanks => (.LIST_GPIO_BANKS, [])
  | writeGPIO bank value => ( RemoteCalls.WRITE_GPIO, packString bank ++ packWord value)
  | writeGPIOMasked bank value mask =>
    (.WRITE_GPIO_MASKED, packString bank ++ packWord value ++ packWord mask)
  | readGPIO bank => ( RemoteCalls.READ_GPIO, packString bank)
  | writeGPIODir bank dir => (.WRITE_GPIO_DIR, packString bank ++ packWord dir)
  | writeGPIODirMasked bank dir mask =>
    (.WRITE_GPIO_DIR_MASKED, packString bank ++ packWord dir ++ packWord mask)
  | readGPIODir bank => (.READ_GPIO_DIR, packString bank)
  | writeI2C addr data => (.WRITE_I2C, packInt addr ++ packString data)
  | readI2C addr numBytes => (.READ_I2C, packInt addr ++ packCount numBytes)
  | transactSPI addr data numBits =>
    (.TRANSACT_SPI, packInt addr ++ packWord data ++ packCount numBits)
  | listUARTs => (.LIST_UARTS, [])
  | writeUART which data => (.WRITE_UART, packString which ++ packString data)
  | readUART which timeoutUs => (.READ_UART, packString which ++ packInt timeoutUs.toInt32)

def request (c : DeviceCall) : Bytes :=
  packCall (.named c.packRequest.1) ++ c.packRequest.2

end DeviceCall

namespace Unpack

/-- `int result; unpacker & result; return unsigned(result);`. -/
def unsigned : Unpack UInt32 := do return (← int).toUInt32

/-- `int result; unpacker & result; return result;` as a `size_t`. -/
def size : Unpack UInt64 := do return toSize (← int)

def unsignedList : Unpack (List UInt32) := do return (← sizeList).map UInt64.toUInt32

end Unpack

/-- The variable each stub declares for its result and unpacks. A void method
    unpacks nothing: `recv` has consumed the VOID of the reply. -/
def DeviceCall.unpackResult (remoteRPCVersion : UInt32) : (c : DeviceCall) → Unpack c.Result
  | .setFrontendMapping .. | .setAntenna .. | .setDCOffsetMode .. | .setDCOffset ..
  | .setIQBalance .. | .setIQBalanceMode .. | .setFrequencyCorrection .. | .setGainMode ..
  | .setGain .. | .setGainElement .. | .setFrequency .. | .setFrequencyComponent ..
  | .setSampleRate .. | .setBandwidth .. | .setMasterClockRate .. | .setReferenceClockRate ..
  | .setClockSource .. | .setTimeSource .. | .setHardwareTime .. | .setCommandTime ..
  | .writeRegisterNamed .. | .writeRegister .. | .writeRegisters .. | .writeSetting ..
  | .writeChannelSetting .. | DeviceCall.writeGPIO .. | .writeGPIOMasked .. | .writeGPIODir ..
  | .writeGPIODirMasked .. | .writeI2C .. | .writeUART .. => pure ()
  | .getFullDuplex .. | .hasDCOffsetMode .. | .getDCOffsetMode .. | .hasDCOffset ..
  | .hasIQBalance .. | .hasFrequencyCorrection .. | .hasIQBalanceMode .. | .getIQBalanceMode ..
  | .hasGainMode .. | .getGainMode .. | .hasHardwareTime .. => Unpack.bool
  | .getNumChannels .. => Unpack.size
  | .readRegisterNamed .. | .readRegister .. | DeviceCall.readGPIO .. | .readGPIODir ..
  | .transactSPI .. => Unpack.unsigned
  | .getHardwareTime .. => Unpack.longLong
  | .getFrequencyCorrection .. | .getGain .. | .getGainElement .. | .getFrequency ..
  | .getFrequencyComponent .. | .getSampleRate .. | .getBandwidth .. | .getMasterClockRate
  | .getReferenceClockRate => Unpack.double
  | .getDCOffset .. | .getIQBalance .. => Unpack.complex
  | .getDriverKey | .getHardwareKey | .getFrontendMapping .. | .getAntenna .. | .getClockSource
  | .getTimeSource | .readSensor .. | .readChannelSensor .. | .readSetting ..
  | .readChannelSetting .. | .readI2C .. | .readUART .. => Unpack.string
  | .getHardwareInfo | .getChannelInfo .. => Unpack.kwargs
  | .getGainRange .. | .getGainRangeElement .. => Unpack.range remoteRPCVersion
  | .getSensorInfo .. | .getChannelSensorInfo .. => Unpack.argInfo remoteRPCVersion
  | .listAntennas .. | .listGains .. | .listFrequencies .. | .listClockSources
  | .listTimeSources | .listSensors | .listChannelSensors .. | .listRegisterInterfaces
  | .listGPIOBanks | .listUARTs => Unpack.stringList
  | .listSampleRates .. | .listBandwidths .. => Unpack.doubleList
  | .readRegisters .. => Unpack.unsignedList
  | .getFrequencyRange .. | .getFrequencyRangeComponent .. | .getSampleRateRange ..
  | .getBandwidthRange .. | .getMasterClockRates | .getReferenceClockRates =>
    Unpack.rangeList remoteRPCVersion
  | .getFrequencyArgsInfo .. | .getSettingInfo | .getChannelSettingInfo .. =>
    Unpack.argInfoList remoteRPCVersion

/-- The rest of a stub, on the bytes that arrive after the request: the value it returns or the
    exception it throws, the unpacker and the bytes it leaves. -/
def DeviceCall.awaitReply (link : Link) (stream : Bytes) (c : DeviceCall) :
    Option (Except Exn c.Result × Option Unpacker × Bytes) :=
  match recvMessage link stream with
  | none => none
  | some (.error e, rest) => some (.error e, none, rest)
  | some (.ok u, rest) =>
    let (result, u') := Program.run Unpacker.exec
      (do Unpack.recvTail; c.unpackResult u.remoteRPCVersion) u
    some (result, some u', rest)

end Soapy.Remote
