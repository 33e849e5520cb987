import Soapy.Lib.Binary64
import Soapy.Lib.OrdMap

/-! # RPC constants and the values that travel

The enumerations and constants of `SoapyRemoteDefs.hpp`, with the source's
numbers, and the value types of `SoapySDR/Types.hpp`.
-/

namespace Soapy.Remote

open Lib

/-- `SoapyRemoteTypes`: the tag in front of every packed value. -/
inductive RemoteTypes where
  | CHAR | BOOL | INT32 | INT64 | FLOAT64 | COMPLEX128 | STRING | RANGE | RANGE_LIST
  | STRING_LIST | FLOAT64_LIST | KWARGS | KWARGS_LIST | EXCEPTION | VOID | CALL | SIZE_LIST
  | ARG_INFO | ARG_INFO_LIST | TYPE_MAX
  deriving DecidableEq

def RemoteTypes.code : RemoteTypes → UInt8
  | .CHAR => 0
  | .BOOL => 1
  | .INT32 => 2
  | .INT64 => 3
  | .FLOAT64 => 4
  | .COMPLEX128 => 5
  | .STRING => 6
  | .RANGE => 7
  | .RANGE_LIST => 8
  | .STRING_LIST => 9
  | .FLOAT64_LIST => 10
  | .KWARGS => 11
  | .KWARGS_LIST => 12
  | .EXCEPTION => 13
  | .VOID => 14
  | .CALL => 15
  | .SIZE_LIST => 16
  | .ARG_INFO => 17
  | .ARG_INFO_LIST => 18
  | .TYPE_MAX => 19

/-- `SoapyRemoteCalls`: the request numbers. -/
inductive RemoteCalls where
  | FIND | MAKE | UNMAKE | HANGUP | GET_SERVER_ID | START_LOG_FORWARDING | STOP_LOG_FORWARDING
  | GET_DRIVER_KEY | GET_HARDWARE_KEY | GET_HARDWARE_INFO | SET_FRONTEND_MAPPING
  | GET_FRONTEND_MAPPING | GET_NUM_CHANNELS | GET_FULL_DUPLEX | GET_CHANNEL_INFO | SETUP_STREAM
  | CLOSE_STREAM | ACTIVATE_STREAM | DEACTIVATE_STREAM | GET_STREAM_FORMATS
  | GET_NATIVE_STREAM_FORMAT | GET_STREAM_ARGS_INFO | SETUP_STREAM_BYPASS | LIST_ANTENNAS
  | SET_ANTENNA | GET_ANTENNA | HAS_DC_OFFSET_MODE | SET_DC_OFFSET_MODE | GET_DC_OFFSET_MODE
  | HAS_DC_OFFSET | SET_DC_OFFSET | GET_DC_OFFSET | HAS_IQ_BALANCE_MODE | SET_IQ_BALANCE_MODE
  | GET_IQ_BALANCE_MODE | HAS_IQ_BALANCE_MODE_AUTO | SET_IQ_BALANCE_MODE_AUTO
  | GET_IQ_BALANCE_MODE_AUTO | HAS_FREQUENCY_CORRECTION | SET_FREQUENCY_CORRECTION
  | GET_FREQUENCY_CORRECTION | LIST_GAINS | SET_GAIN_MODE | GET_GAIN_MODE | SET_GAIN
  | SET_GAIN_ELEMENT | GET_GAIN | GET_GAIN_ELEMENT | GET_GAIN_RANGE | GET_GAIN_RANGE_ELEMENT
  | HAS_GAIN_MODE | SET_FREQUENCY | SET_FREQUENCY_COMPONENT | GET_FREQUENCY
  | GET_FREQUENCY_COMPONENT | LIST_FREQUENCIES | GET_FREQUENCY_RANGE
  | GET_FREQUENCY_RANGE_COMPONENT | GET_FREQUENCY_ARGS_INFO | SET_SAMPLE_RATE | GET_SAMPLE_RATE
  | LIST_SAMPLE_RATES | GET_SAMPLE_RATE_RANGE | SET_BANDWIDTH | GET_BANDWIDTH | LIST_BANDWIDTHS
  | GET_BANDWIDTH_RANGE | SET_MASTER_CLOCK_RATE | GET_MASTER_CLOCK_RATE | LIST_CLOCK_SOURCES
  | SET_CLOCK_SOURCE | GET_CLOCK_SOURCE | GET_MASTER_CLOCK_RATES | SET_REF_CLOCK_RATE
  | GET_REF_CLOCK_RATE | GET_REF_CLOCK_RATES | LIST_TIME_SOURCES | SET_TIME_SOURCE
  | GET_TIME_SOURCE | HAS_HARDWARE_TIME | GET_HARDWARE_TIME | SET_HARDWARE_TIME
  | SET_COMMAND_TIME | LIST_SENSORS | READ_SENSOR | LIST_CHANNEL_SENSORS | READ_CHANNEL_SENSOR
  | GET_SENSOR_INFO | GET_CHANNEL_SENSOR_INFO | WRITE_REGISTER | READ_REGISTER
  | LIST_REGISTER_INTERFACES | WRITE_REGISTER_NAMED | READ_REGISTER_NAMED | WRITE_REGISTERS
  | READ_REGISTERS | WRITE_SETTING | READ_SETTING | GET_SETTING_INFO | WRITE_CHANNEL_SETTING
  | READ_CHANNEL_SETTING | GET_CHANNEL_SETTING_INFO | LIST_GPIO_BANKS | WRITE_GPIO
  | WRITE_GPIO_MASKED | READ_GPIO | WRITE_GPIO_DIR | WRITE_GPIO_DIR_MASKED | READ_GPIO_DIR
  | WRITE_I2C | READ_I2C | TRANSACT_SPI | LIST_UARTS | WRITE_UART | READ_UART
  deriving DecidableEq

namespace RemoteCalls

def code : RemoteCalls → Int32
  | .FIND => 0
  | .MAKE => 1
  | .UNMAKE => 2
  | .HANGUP => 3
  | .GET_SERVER_ID => 20
  | .START_LOG_FORWARDING => 21
  | .STOP_LOG_FORWARDING => 22
  | .GET_DRIVER_KEY => 100
  | .GET_HARDWARE_KEY => 101
  | .GET_HARDWARE_INFO => 102
  | .SET_FRONTEND_MAPPING => 200
  | .GET_FRONTEND_MAPPING => 201
  | .GET_NUM_CHANNELS => 202
  | .GET_FULL_DUPLEX => 203
  | .GET_CHANNEL_INFO => 204
  | .SETUP_STREAM => 300
  | .CLOSE_STREAM => 301
  | .ACTIVATE_STREAM => 302
  | .DEACTIVATE_STREAM => 303
  | .GET_STREAM_FORMATS => 304
  | .GET_NATIVE_STREAM_FORMAT => 305
  | .GET_STREAM_ARGS_INFO => 306
  | .SETUP_STREAM_BYPASS => 307
  | .LIST_ANTENNAS => 500
  | .SET_ANTENNA => 501
  | .GET_ANTENNA => 502
  | .HAS_DC_OFFSET_MODE => 600
  | .SET_DC_OFFSET_MODE => 601
  | .GET_DC_OFFSET_MODE => 602
  | .HAS_DC_OFFSET => 603
  | .SET_DC_OFFSET => 604
  | .GET_DC_OFFSET => 605
  | .HAS_IQ_BALANCE_MODE => 606
  | .SET_IQ_BALANCE_MODE => 607
  | .GET_IQ_BALANCE_MODE => 608
  | .HAS_IQ_BALANCE_MODE_AUTO => 609
  | .SET_IQ_BALANCE_MODE_AUTO => 610
  | .GET_IQ_BALANCE_MODE_AUTO => 611
  | .HAS_FREQUENCY_CORRECTION => 503
  | .SET_FREQUENCY_CORRECTION => 504
  | .GET_FREQUENCY_CORRECTION => 505
  | .LIST_GAINS => 700
  | .SET_GAIN_MODE => 701
  | .GET_GAIN_MODE => 702
  | .SET_GAIN => 703
  | .SET_GAIN_ELEMENT => 704
  | .GET_GAIN => 705
  | .GET_GAIN_ELEMENT => 706
  | .GET_GAIN_RANGE => 707
  | .GET_GAIN_RANGE_ELEMENT => 708
  | .HAS_GAIN_MODE => 709
  | .SET_FREQUENCY => 800
  | .SET_FREQUENCY_COMPONENT => 801
  | .GET_FREQUENCY => 802
  | .GET_FREQUENCY_COMPONENT => 803
  | .LIST_FREQUENCIES => 804
  | .GET_FREQUENCY_RANGE => 805
  | .GET_FREQUENCY_RANGE_COMPONENT => 806
  | .GET_FREQUENCY_ARGS_INFO => 807
  | .SET_SAMPLE_RATE => 900
  | .GET_SAMPLE_RATE => 901
  | .LIST_SAMPLE_RATES => 902
  | .GET_SAMPLE_RATE_RANGE => 907
  | .SET_BANDWIDTH => 903
  | .GET_BANDWIDTH => 904
  | .LIST_BANDWIDTHS => 905
  | .GET_BANDWIDTH_RANGE => 906
  | .SET_MASTER_CLOCK_RATE => 1000
  | .GET_MASTER_CLOCK_RATE => 1001
  | .LIST_CLOCK_SOURCES => 1002
  | .SET_CLOCK_SOURCE => 1003
  | .GET_CLOCK_SOURCE => 1004
  | .GET_MASTER_CLOCK_RATES => 1008
  | .SET_REF_CLOCK_RATE => 1009
  | .GET_REF_CLOCK_RATE => 1010
  | .GET_REF_CLOCK_RATES => 1011
  | .LIST_TIME_SOURCES => 1005
  | .SET_TIME_SOURCE => 1006
  | .GET_TIME_SOURCE => 1007
  | .HAS_HARDWARE_TIME => 1100
  | .GET_HARDWARE_TIME => 1101
  | .SET_HARDWARE_TIME => 1102
  | .SET_COMMAND_TIME => 1103
  | .LIST_SENSORS => 1200
  | .READ_SENSOR => 1201
  | .LIST_CHANNEL_SENSORS => 1202
  | .READ_CHANNEL_SENSOR => 1203
  | .GET_SENSOR_INFO => 1204
  | .GET_CHANNEL_SENSOR_INFO => 1205
  | .WRITE_REGISTER => 1300
  | .READ_REGISTER => 1301
  | .LIST_REGISTER_INTERFACES => 1302
  | .WRITE_REGISTER_NAMED => 1303
  | .READ_REGISTER_NAMED => 1304
  | .WRITE_REGISTERS => 1305
  | .READ_REGISTERS => 1306
  | .WRITE_SETTING => 1400
  | .READ_SETTING => 1401
  | .GET_SETTING_INFO => 1402
  | .WRITE_CHANNEL_SETTING => 1403
  | .READ_CHANNEL_SETTING => 1404
  | .GET_CHANNEL_SETTING_INFO => 1405
  | .LIST_GPIO_BANKS => 1500
  | RemoteCalls.WRITE_GPIO => 1501
  | .WRITE_GPIO_MASKED => 1502
  | RemoteCalls.READ_GPIO => 1503
  | .WRITE_GPIO_DIR => 1504
  | .WRITE_GPIO_DIR_MASKED => 1505
  | .READ_GPIO_DIR => 1506
  | .WRITE_I2C => 1600
  | .READ_I2C => 1601
  | .TRANSACT_SPI => 1700
  | .LIST_UARTS => 1801
  | .WRITE_UART => 1802
  | .READ_UART => 1803

/-- Every enumerator, in the order of the source. -/
def all : List RemoteCalls := [
  .FIND, .MAKE, .UNMAKE, .HANGUP, .GET_SERVER_ID, .START_LOG_FORWARDING, .STOP_LOG_FORWARDING,
  .GET_DRIVER_KEY, .GET_HARDWARE_KEY, .GET_HARDWARE_INFO, .SET_FRONTEND_MAPPING,
  .GET_FRONTEND_MAPPING, .GET_NUM_CHANNELS, .GET_FULL_DUPLEX, .GET_CHANNEL_INFO, .SETUP_STREAM,
  .CLOSE_STREAM, .ACTIVATE_STREAM, .DEACTIVATE_STREAM, .GET_STREAM_FORMATS,
  .GET_NATIVE_STREAM_FORMAT, .GET_STREAM_ARGS_INFO, .SETUP_STREAM_BYPASS, .LIST_ANTENNAS,
  .SET_ANTENNA, .GET_ANTENNA, .HAS_DC_OFFSET_MODE, .SET_DC_OFFSET_MODE, .GET_DC_OFFSET_MODE,
  .HAS_DC_OFFSET, .SET_DC_OFFSET, .GET_DC_OFFSET, .HAS_IQ_BALANCE_MODE, .SET_IQ_BALANCE_MODE,
  .GET_IQ_BALANCE_MODE, .HAS_IQ_BALANCE_MODE_AUTO, .SET_IQ_BALANCE_MODE_AUTO,
  .GET_IQ_BALANCE_MODE_AUTO, .HAS_FREQUENCY_CORRECTION, .SET_FREQUENCY_CORRECTION,
  .GET_FREQUENCY_CORRECTION, .LIST_GAINS, .SET_GAIN_MODE, .GET_GAIN_MODE, .SET_GAIN,
  .SET_GAIN_ELEMENT, .GET_GAIN, .GET_GAIN_ELEMENT, .GET_GAIN_RANGE, .GET_GAIN_RANGE_ELEMENT,
  .HAS_GAIN_MODE, .SET_FREQUENCY, .SET_FREQUENCY_COMPONENT, .GET_FREQUENCY,
  .GET_FREQUENCY_COMPONENT, .LIST_FREQUENCIES, .GET_FREQUENCY_RANGE,
  .GET_FREQUENCY_RANGE_COMPONENT, .GET_FREQUENCY_ARGS_INFO, .SET_SAMPLE_RATE, .GET_SAMPLE_RATE,
  .LIST_SAMPLE_RATES, .GET_SAMPLE_RATE_RANGE, .SET_BANDWIDTH, .GET_BANDWIDTH, .LIST_BANDWIDTHS,
  .GET_BANDWIDTH_RANGE, .SET_MASTER_CLOCK_RATE, .GET_MASTER_CLOCK_RATE, .LIST_CLOCK_SOURCES,
  .SET_CLOCK_SOURCE, .GET_CLOCK_SOURCE, .GET_MASTER_CLOCK_RATES, .SET_REF_CLOCK_RATE,
  .GET_REF_CLOCK_RATE, .GET_REF_CLOCK_RATES, .LIST_TIME_SOURCES, .SET_TIME_SOURCE,
  .GET_TIME_SOURCE, .HAS_HARDWARE_TIME, .GET_HARDWARE_TIME, .SET_HARDWARE_TIME,
  .SET_COMMAND_TIME, .LIST_SENSORS, .READ_SENSOR, .LIST_CHANNEL_SENSORS, .READ_CHANNEL_SENSOR,
  .GET_SENSOR_INFO, .GET_CHANNEL_SENSOR_INFO, .WRITE_REGISTER, .READ_REGISTER,
  .LIST_REGISTER_INTERFACES, .WRITE_REGISTER_NAMED, .READ_REGISTER_NAMED, .WRITE_REGISTERS,
  .READ_REGISTERS, .WRITE_SETTING, .READ_SETTING, .GET_SETTING_INFO, .WRITE_CHANNEL_SETTING,
  .READ_CHANNEL_SETTING, .GET_CHANNEL_SETTING_INFO, .LIST_GPIO_BANKS, RemoteCalls.WRITE_GPIO,
  .WRITE_GPIO_MASKED, RemoteCalls.READ_GPIO, .WRITE_GPIO_DIR, .WRITE_GPIO_DIR_MASKED, .READ_GPIO_DIR,
  .WRITE_I2C, .READ_I2C, .TRANSACT_SPI, .LIST_UARTS, .WRITE_UART, .READ_UART]

end RemoteCalls

theorem RemoteCalls.mem_all (c : RemoteCalls) : c ∈ RemoteCalls.all := by
  cases c <;> exact List.elem_iff.mp rfl

/-- The enumerator with a given number, if there is one. -/
def RemoteCalls.ofCode (code : Int32) : Option RemoteCalls :=
  RemoteCalls.all.find? (fun c => c.code = code)

theorem RemoteCalls.ofCode_code (c : RemoteCalls) : RemoteCalls.ofCode c.code = some c := by
  have all : ∀ c ∈ RemoteCalls.all, RemoteCalls.ofCode c.code = some c := by decide +kernel
  exact all c c.mem_all

/-- What a `SoapyRemoteCalls` variable holds after a conversion from an arbitrary
    int: one of the enumerators, or a number that names no call. -/
inductive CallCode where
  | named (call : RemoteCalls)
  | unnamed (code : Int32) (unused : RemoteCalls.ofCode code = none)
  deriving DecidableEq

namespace CallCode

def code : CallCode → Int32
  | .named c => c.code
  | .unnamed code _ => code

def ofInt (code : Int32) : CallCode :=
  match h : RemoteCalls.ofCode code with
  | some c => .named c
  | none => .unnamed code h

@[simp] theorem ofInt_code (c : CallCode) : ofInt c.code = c := by
  cases c with
  | named c =>
    have found : RemoteCalls.ofCode (code (.named c)) = some c := c.ofCode_code
    unfold ofInt
    split <;> simp_all
  | unnamed code unused =>
    have missing : RemoteCalls.ofCode (CallCode.code (.unnamed code unused)) = none := unused
    unfold ofInt
    split
    · simp_all
    · rfl

end CallCode

/-- `major, minor, patch when this was last updated`. -/
def SoapyRPCVersion : UInt32 := 0x000400

/-- `SOAPY_PACKET_WORD32` of a four letter text. -/
def packetWord32 (c₀ c₁ c₂ c₃ : Char) : UInt32 :=
  UInt32.ofNat (c₀.toNat * 2 ^ 24 + c₁.toNat * 2 ^ 16 + c₂.toNat * 2 ^ 8 + c₃.toNat)

def SoapyRPCHeaderWord : UInt32 := packetWord32 'S' 'R' 'P' 'C'

def SoapyRPCTrailerWord : UInt32 := packetWord32 'C' 'P' 'R' 'S'

/-- A `std::exception`. `what()` is a C string, so a text given to the constructor
    of `std::runtime_error` is seen up to its first NUL. -/
structure Exn where
  what : Bytes
  terminated : 0 ∉ what
  deriving DecidableEq

def Exn.runtimeError (text : Bytes) : Exn :=
  ⟨text.takeWhile (· ≠ 0), takeWhile_whole text⟩

/-- `sizeof(SoapyRPCHeader)`: header word, version, length. -/
def headerSize : Nat := 12

/-- `sizeof(SoapyRPCTrailer)`: the trailer word. -/
def trailerSize : Nat := 4

/-- `SOAPY_REMOTE_SOCKET_BUFFMAX`: the most a single socket call transfers. -/
def socketBuffMax : Nat := 4096

abbrev Kwargs := OrdMap Bytes Bytes

/-- `std::complex<double>`. -/
structure Complex128 where
  real : Double
  imag : Double
  deriving DecidableEq

structure Range where
  minimum : Double
  maximum : Double
  step : Double
  deriving DecidableEq

/-- `ArgInfo::Type`. The enum is stored in an int, so a number received from the
    network that is none of the enumerators is kept as it came. -/
inductive ArgType where
  | BOOL | INT | FLOAT | STRING
  | unnamed (code : Int32) (unused : code ≠ 0 ∧ code ≠ 1 ∧ code ≠ 2 ∧ code ≠ 3)
  deriving DecidableEq

namespace ArgType

def code : ArgType → Int32
  | .BOOL => 0
  | .INT => 1
  | .FLOAT => 2
  | .STRING => 3
  | .unnamed code _ => code

def ofInt (code : Int32) : ArgType :=
  if h₀ : code = 0 then .BOOL
  else if h₁ : code = 1 then .INT
  else if h₂ : code = 2 then .FLOAT
  else if h₃ : code = 3 then .STRING
  else .unnamed code ⟨h₀, h₁, h₂, h₃⟩

@[simp] theorem ofInt_code (t : ArgType) : ofInt t.code = t := by
  cases t with
  | BOOL | INT | FLOAT | STRING => rfl
  | unnamed code unused =>
    obtain ⟨h₀, h₁, h₂, h₃⟩ := unused
    rw [ArgType.code, ofInt, dif_neg h₀, dif_neg h₁, dif_neg h₂, dif_neg h₃]

end ArgType

structure ArgInfo where
  key : Bytes
  value : Bytes
  name : Bytes
  description : Bytes
  units : Bytes
  type : ArgType
  range : Range
  options : List Bytes
  optionNames : List Bytes
  deriving DecidableEq

end Soapy.Remote
