import Soapy.Remote.Settings

/-! # The requests a client handler reads

Each case of the dispatcher unpacks its arguments before it does anything else, so
a request is first read as a whole and then served. Arguments arrive as chars and
ints and are converted to the parameter types of the methods at the call.
-/

namespace Soapy.Remote

open Lib

inductive StreamQuery where
  | getStreamFormats (direction : Int32) (channel : UInt64)
  | getNativeStreamFormat (direction : Int32) (channel : UInt64)
  | getStreamArgsInfo (direction : Int32) (channel : UInt64)

/-- `getNativeStreamFormat` also writes the full scale through a reference. -/
abbrev StreamQuery.Result : StreamQuery → Type
  | .getStreamFormats .. => List Bytes
  | .getNativeStreamFormat .. => Bytes × Double
  | .getStreamArgsInfo .. => List ArgInfo

inductive Request where
  | find (args : Kwargs)
  | make (args : Kwargs)
  | unmake
  | hangup
  | getServerId
  | startLogForwarding
  | stopLogForwarding
  | device (call : DeviceCall)
  | query (query : StreamQuery)
  | setupStream (direction : Int32) (format : Bytes) (channels : List UInt64) (args : Kwargs)
      (clientBindPort statusBindPort : Bytes)
  | closeStream (streamId : Int32)
  | activateStream (streamId flags : Int32) (timeNs : Int64) (numElems : UInt64)
  | deactivateStream (streamId flags : Int32) (timeNs : Int64)
  | setupStreamBypass (direction : Int32) (format : Bytes) (channels : List UInt64) (args : Kwargs)

namespace Unpack

/-- `char direction`, passed on as an int. -/
def direction : Unpack Int32 := do return (← char).toInt32

/-- `unsigned(numBytes)`, passed on as a `size_t`. -/
def unsignedSize : Unpack UInt64 := do return (← unsigned).toUInt64

/-- `long(timeoutUs)`. -/
def long : Unpack Int64 := do return (← int).toInt64

def arguments : RemoteCalls → Unpack Request
  | .FIND => do return .find (← kwargs)
  | .MAKE => do return .make (← kwargs)
  | .UNMAKE => return .unmake
  | .HANGUP => return .hangup
  | .GET_SERVER_ID => return .getServerId
  | .START_LOG_FORWARDING => return .startLogForwarding
  | .STOP_LOG_FORWARDING => return .stopLogForwarding
  | .GET_STREAM_FORMATS => do return .query (.getStreamFormats (← direction) (← size))
  | .GET_NATIVE_STREAM_FORMAT => do return .query (.getNativeStreamFormat (← direction) (← size))
  | .GET_STREAM_ARGS_INFO => do return .query (.getStreamArgsInfo (← direction) (← size))
  | .SETUP_STREAM => do
    return .setupStream (← direction) (← string) (← sizeList) (← kwargs) (← string) (← string)
  | .CLOSE_STREAM => do return .closeStream (← int)
  | .ACTIVATE_STREAM => do return .activateStream (← int) (← int) (← longLong) (← size)
  | .DEACTIVATE_STREAM => do return .deactivateStream (← int) (← int) (← longLong)
  | .SETUP_STREAM_BYPASS => do
    return .setupStreamBypass (← direction) (← string) (← sizeList) (← kwargs)
  | .GET_DRIVER_KEY => return .device .getDriverKey
  | .GET_HARDWARE_KEY => return .device .getHardwareKey
  | .GET_HARDWARE_INFO => return .device .getHardwareInfo
  | .SET_FRONTEND_MAPPING => do return .device (.setFrontendMapping (← direction) (← string))
  | .GET_FRONTEND_MAPPING => do return .device (.getFrontendMapping (← direction))
  | .GET_NUM_CHANNELS => do return .device (.getNumChannels (← direction))
  | .GET_FULL_DUPLEX => do return .device (.getFullDuplex (← direction) (← size))
  | .GET_CHANNEL_INFO => do return .device (.getChannelInfo (← direction) (← size))
  | .LIST_ANTENNAS => do return .device (.listAntennas (← direction) (← size))
  | .SET_ANTENNA => do return .device (.setAntenna (← direction) (← size) (← string))
  | .GET_ANTENNA => do return .device (.getAntenna (← direction) (← size))
  | .HAS_DC_OFFSET_MODE => do return .device (.hasDCOffsetMode (← direction) (← size))
  | .SET_DC_OFFSET_MODE => do return .device (.setDCOffsetMode (← direction) (← size) (← bool))
  | .GET_DC_OFFSET_MODE => do return .device (.getDCOffsetMode (← direction) (← size))
  | .HAS_DC_OFFSET => do return .device (.hasDCOffset (← direction) (← size))
  | .SET_DC_OFFSET => do return .device (.setDCOffset (← direction) (← size) (← complex))
  | .GET_DC_OFFSET => do return .device (.getDCOffset (← direction) (← size))
  | .HAS_IQ_BALANCE_MODE => do return .device (.hasIQBalance (← direction) (← size))
  | .SET_IQ_BALANCE_MODE => do return .device (.setIQBalance (← direction) (← size) (← complex))
  | .GET_IQ_BALANCE_MODE => do return .device (.getIQBalance (← direction) (← size))
  | .HAS_IQ_BALANCE_MODE_AUTO => do return .device (.hasIQBalanceMode (← direction) (← size))
  | .SET_IQ_BALANCE_MODE_AUTO => do
    return .device (.setIQBalanceMode (← direction) (← size) (← bool))
  | .GET_IQ_BALANCE_MODE_AUTO => do return .device (.getIQBalanceMode (← direction) (← size))
  | .HAS_FREQUENCY_CORRECTION => do return .device (.hasFrequencyCorrection (← direction) (← size))
  | .SET_FREQUENCY_CORRECTION => do
    return .device (.setFrequencyCorrection (← direction) (← size) (← double))
  | .GET_FREQUENCY_CORRECTION => do return .device (.getFrequencyCorrection (← direction) (← size))
  | .LIST_GAINS => do return .device (.listGains (← direction) (← size))
  | .HAS_GAIN_MODE => do return .device (.hasGainMode (← direction) (← size))
  | .SET_GAIN_MODE => do return .device (.setGainMode (← direction) (← size) (← bool))
  | .GET_GAIN_MODE => do return .device (.getGainMode (← direction) (← size))
  | .SET_GAIN => do return .device (.setGain (← direction) (← size) (← double))
  | .SET_GAIN_ELEMENT => do
    return .device (.setGainElement (← direction) (← size) (← string) (← double))
  | .GET_GAIN => do return .device (.getGain (← direction) (← size))
  | .GET_GAIN_ELEMENT => do return .device (.getGainElement (← direction) (← size) (← string))
  | .GET_GAIN_RANGE => do return .device (.getGainRange (← direction) (← size))
  | .GET_GAIN_RANGE_ELEMENT => do
    return .device (.getGainRangeElement (← direction) (← size) (← string))
  | .SET_FREQUENCY => do return .device (.setFrequency (← direction) (← size) (← double) (← kwargs))
  | .SET_FREQUENCY_COMPONENT => do
    return .device (.setFrequencyComponent (← direction) (← size) (← string) (← double) (← kwargs))
  | .GET_FREQUENCY => do return .device (.getFrequency (← direction) (← size))
  | .GET_FREQUENCY_COMPONENT => do
    return .device (.getFrequencyComponent (← direction) (← size) (← string))
  | .LIST_FREQUENCIES => do return .device (.listFrequencies (← direction) (← size))
  | .GET_FREQUENCY_RANGE => do return .device (.getFrequencyRange (← direction) (← size))
  | .GET_FREQUENCY_RANGE_COMPONENT => do
    return .device (.getFrequencyRangeComponent (← direction) (← size) (← string))
  | .GET_FREQUENCY_ARGS_INFO => do return .device (.getFrequencyArgsInfo (← direction) (← size))
  | .SET_SAMPLE_RATE => do return .device (.setSampleRate (← direction) (← size) (← double))
  | .GET_SAMPLE_RATE => do return .device (.getSampleRate (← direction) (← size))
  | .LIST_SAMPLE_RATES => do return .device (.listSampleRates (← direction) (← size))
  | .GET_SAMPLE_RATE_RANGE => do return .device (.getSampleRateRange (← direction) (← size))
  | .SET_BANDWIDTH => do return .device (.setBandwidth (← direction) (← size) (← double))
  | .GET_BANDWIDTH => do return .device (.getBandwidth (← direction) (← size))
  | .LIST_BANDWIDTHS => do return .device (.listBandwidths (← direction) (← size))
  | .GET_BANDWIDTH_RANGE => do return .device (.getBandwidthRange (← direction) (← size))
  | .SET_MASTER_CLOCK_RATE => do return .device (.setMasterClockRate (← double))
  | .GET_MASTER_CLOCK_RATE => return .device .getMasterClockRate
  | .GET_MASTER_CLOCK_RATES => return .device .getMasterClockRates
  | .SET_REF_CLOCK_RATE => do return .device (.setReferenceClockRate (← double))
  | .GET_REF_CLOCK_RATE => return .device .getReferenceClockRate
  | .GET_REF_CLOCK_RATES => return .device .getReferenceClockRates
  | .LIST_CLOCK_SOURCES => return .device .listClockSources
  | .SET_CLOCK_SOURCE => do return .device (.setClockSource (← string))
  | .GET_CLOCK_SOURCE => return .device .getClockSource
  | .LIST_TIME_SOURCES => return .device .listTimeSources
  | .SET_TIME_SOURCE => do return .device (.setTimeSource (← string))
  | .GET_TIME_SOURCE => return .device .getTimeSource
  | .HAS_HARDWARE_TIME => do return .device (.hasHardwareTime (← string))
  | .GET_HARDWARE_TIME => do return .device (.getHardwareTime (← string))
  | .SET_HARDWARE_TIME => do return .device (.setHardwareTime (← longLong) (← string))
  | .SET_COMMAND_TIME => do return .device (.setCommandTime (← longLong) (← string))
  | .LIST_SENSORS => return .device .listSensors
  | .GET_SENSOR_INFO => do return .device (.getSensorInfo (← string))
  | .READ_SENSOR => do return .device (.readSensor (← string))
  | .LIST_CHANNEL_SENSORS => do return .device (.listChannelSensors (← direction) (← size))
  | .GET_CHANNEL_SENSOR_INFO => do
    return .device (.getChannelSensorInfo (← direction) (← size) (← string))
  | .READ_CHANNEL_SENSOR => do return .device (.readChannelSensor (← direction) (← size) (← string))
  | .WRITE_REGISTER => do return .device (.writeRegister (← unsigned) (← unsigned))
  | .READ_REGISTER => do return .device (.readRegister (← unsigned))
  | .LIST_REGISTER_INTERFACES => return .device .listRegisterInterfaces
  | .WRITE_REGISTER_NAMED => do
    return .device (.writeRegisterNamed (← string) (← unsigned) (← unsigned))
  | .READ_REGISTER_NAMED => do return .device (.readRegisterNamed (← string) (← unsigned))
  | .WRITE_REGISTERS => do return .device (.writeRegisters (← string) (← unsigned) (← unsignedList))
  | .READ_REGISTERS => do return .device (.readRegisters (← string) (← unsigned) (← size))
  | .GET_SETTING_INFO => return .device .getSettingInfo
  | .WRITE_SETTING => do return .device (.writeSetting (← string) (← string))
  | .READ_SETTING => do return .device (.readSetting (← string))
  | .GET_CHANNEL_SETTING_INFO => do return .device (.getChannelSettingInfo (← direction) (← size))
  | .WRITE_CHANNEL_SETTING => do
    return .device (.writeChannelSetting (← direction) (← size) (← string) (← string))
  | .READ_CHANNEL_SETTING => do
    return .device (.readChannelSetting (← direction) (← size) (← string))
  | .LIST_GPIO_BANKS => return .device .listGPIOBanks
  | RemoteCalls.WRITE_GPIO => do return .device ( DeviceCall.writeGPIO (← string) (← unsigned))
  | .WRITE_GPIO_MASKED => do return .device (.writeGPIOMasked (← string) (← unsigned) (← unsigned))
  | RemoteCalls.READ_GPIO => do return .device ( DeviceCall.readGPIO (← string))
  | .WRITE_GPIO_DIR => do return .device (.writeGPIODir (← string) (← unsigned))
  | .WRITE_GPIO_DIR_MASKED => do
    return .device (.writeGPIODirMasked (← string) (← unsigned) (← unsigned))
  | .READ_GPIO_DIR => do return .device (.readGPIODir (← string))
  | .WRITE_I2C => do return .device (.writeI2C (← int) (← string))
  | .READ_I2C => do return .device (.readI2C (← int) (← unsignedSize))
  | .TRANSACT_SPI => do return .device (.transactSPI (← int) (← unsigned) (← size))
  | .LIST_UARTS => return .device .listUARTs
  | .WRITE_UART => do return .device (.writeUART (← string) (← string))
  | .READ_UART => do return .device (.readUART (← string) (← long))

def request : Unpack Request := do
  match ← call with
  | .named c => arguments c
  | .unnamed code _ =>
    throwText ("SoapyClientHandler::handleOnce(" ++ toString code.toInt ++ ") unknown call")

end Unpack

end Soapy.Remote
