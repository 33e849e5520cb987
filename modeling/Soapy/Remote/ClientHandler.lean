import Soapy.Lib.Action
import Soapy.Remote.HandlerRequests
import Soapy.Remote.Url

/-! # SoapyClientHandler

The state of a handler and what each request does to it. Everything outside the
handler, that is the device and its factory, the sockets and the operating
system, is a `World`: it may answer each call as it likes and keeps a state of
its own.

Pointers become names: the `n`-th stream a device has set up and the `n`-th
thread that was started. A null pointer that is dereferenced, a thread that is
joined after it was deleted, a division by zero and a throwing destructor end the
process, and no handler catches that.

The connection to the client stays up: a failed receive or send makes
`handlerLoop` leave its loop, and the handler is destroyed.
-/

namespace Soapy.Remote

open Lib

abbrev DevicePtr := Nat

/-- Why an action of the handler did not return. -/
inductive Stop where
  | thrown (e : Exn)
  | crashed

/-- The outside of a handler, with a state of type `W`. -/
structure World (W : Type) where
  uuid : Bytes
  /-- `SoapyInfo::getServerVersion()`, a text of the build. -/
  serverVersion : Bytes
  /-- `_sock.getsockname()` and `_sock.getpeername()`. -/
  sockname : Bytes
  peername : Bytes
  /-- `size_t(std::stod(text))`. -/
  stodSize : Bytes → Except Exn UInt64
  stod : Bytes → Except Exn Double
  enumerate : Kwargs → W → Except Exn (List Kwargs) × W
  make : Kwargs → W → Except Exn DevicePtr × W
  unmake : DevicePtr → W → W
  method : DevicePtr → (c : DeviceCall) → W → Except Exn c.Result × W
  query : DevicePtr → (q : StreamQuery) → W → Except Exn q.Result × W
  setupStream : DevicePtr → Int32 → Bytes → List UInt64 → Kwargs → W → Except Exn Unit × W
  closeStream : DevicePtr → Nat → W → Except Exn Unit × W
  activateStream : DevicePtr → Nat → Int32 → Int64 → UInt64 → W → Except Exn Int32 × W
  deactivateStream : DevicePtr → Nat → Int32 → Int64 → W → Except Exn Int32 × W
  /-- Bind a new socket: the name it is bound to, or the last error message. -/
  bind : Bytes → W → Except Bytes Bytes × W
  connect : Bytes → W → Except Bytes Unit × W
  /-- False when `accept` returns null. -/
  accept : W → Bool × W
  lastErrorMsg : W → Bytes
  /-- `packerTcp()`. -/
  sendPort : Bytes → W → Except Exn Unit × W
  /-- The buffers of a stream endpoint, of the given size each. -/
  allocate : Nat → W → Except Exn Unit × W
  startThread : W → Except Exn Unit × W

/-- `ServerStreamData`, as far as it decides what teardown does. The thread
    pointers keep their values when the threads are gone. -/
structure StreamData where
  stream : Nat
  streamThread : Option Nat
  statusThread : Option Nat
  deriving DecidableEq

/-- `failed` stands for a `closeStream` that threw and for a failure between the `setupStream` of
    the device and the reply to the client. -/
inductive Event where
  | opened (stream : Nat)
  | closed (stream : Nat)
  | started (thread : Nat)
  | joined (thread : Nat)
  | failed
  deriving DecidableEq

/-- The number of streams set up so far, which names the next one. -/
def countOpened : List Event → Nat
  | [] => 0
  | .opened _ :: rest => countOpened rest + 1
  | _ :: rest => countOpened rest

/-- The number of threads started so far. -/
def countStarted : List Event → Nat
  | [] => 0
  | .started _ :: rest => countStarted rest + 1
  | _ :: rest => countStarted rest

/-- The handler, the world around it, and a record of what it did: the payloads
    it sent, the device methods it called, its streams and threads. -/
structure Server (W : Type) where
  world : W
  dev : Option DevicePtr
  logForwarder : Bool
  nextStreamId : Int
  streamData : OrdMap Int StreamData
  sent : List Bytes
  calls : List DeviceCall
  events : List Event

/-- The constructor. -/
def Server.init {W : Type} (world : W) : Server W :=
  ⟨world, none, false, 0, .empty, [], [], []⟩

abbrev Handle (W : Type) := Action (Server W) Stop

namespace Handle

variable {W : Type}

def outside {α : Type} (f : W → Except Exn α × W) : Handle W α := fun s =>
  match f s.world with
  | (.ok a, world) => (.ok a, { s with world := world })
  | (.error e, world) => (.error (.thrown e), { s with world := world })

def throw {α : Type} (text : Bytes) : Handle W α := Action.stop (.thrown (Exn.runtimeError text))

/-- `_dev->`. -/
def device : Handle W DevicePtr := do
  match (← Action.get).dev with
  | some dev => return dev
  | none => Action.stop .crashed

def record (e : Event) : Handle W Unit :=
  Action.modify (fun s => { s with events := s.events ++ [e] })

def critical {α : Type} (f : W → Except Exn α × W) : Handle W α :=
  Action.rescue (outside f) (fun e => do
    record .failed
    Action.stop e)

/-- `thread->join(); delete thread;` unless the pointer is null. -/
def joinThread : Option Nat → Handle W Unit
  | none => pure ()
  | some thread => do
    if .joined thread ∈ (← Action.get).events then Action.stop .crashed
    record (.joined thread)

/-- `ServerStreamData::stopThreads`. -/
def stopThreads (data : StreamData) : Handle W Unit := do
  joinThread data.streamThread
  joinThread data.statusThread

/-- `new std::thread(...)`. -/
def startThread (env : World W) : Handle W Nat := do
  critical env.startThread
  let thread := countStarted (← Action.get).events
  record (.started thread)
  return thread

/-- `_dev->closeStream(data.stream)`. -/
def closeStream (env : World W) (data : StreamData) : Handle W Unit := do
  let dev ← device
  record (.closed data.stream)
  critical (env.closeStream dev data.stream)

/-- `_dev->setupStream(...)` and the entry of the new stream in `_streamData`:
    its id and its data. The id counter is an int. -/
def openStream (env : World W) (direction : Int32) (format : Bytes) (channels : List UInt64)
    (args : Kwargs) : Handle W (Int × StreamData) := do
  let dev ← device
  outside (env.setupStream dev direction format channels args)
  let s ← Action.get
  let stream := countOpened s.events
  record (.opened stream)
  let id := s.nextStreamId
  let data := { (s.streamData.find? id).getD ⟨0, none, none⟩ with stream := stream }
  Action.modify (fun s => { s with streamData := s.streamData.insert id data })
  if id + 1 = 2 ^ 31 then Action.stop .crashed
  Action.modify (fun s => { s with nextStreamId := id + 1 })
  return (id, data)

def setData (id : Int) (data : StreamData) : Handle W Unit :=
  Action.modify (fun s => { s with streamData := s.streamData.insert id data })

def eraseData (id : Int) : Handle W Unit :=
  Action.modify (fun s => { s with streamData := s.streamData.erase id })

end Handle

/-- `SoapySDR_formatToSize`: the digits of a format are its bits, twice for a
    complex one. The text is read as a C string. -/
def formatToSize (format : Bytes) : UInt64 :=
  let text := format.takeWhile (· ≠ 0)
  let size := text.foldl (fun size ch =>
    if 48 ≤ ch ∧ ch ≤ 57 then size * 10 + (ch - 48).toUInt64 else size) (0 : UInt64)
  (if 67 ∈ text then size * 2 else size) / 8

namespace Handle

variable {W : Type} (env : World W)

def numberArg {α : Type} (parse : Bytes → Except Exn α) (args : Kwargs) (key : String) (default : α) :
    Except Exn α :=
  match args.find? (ascii key) with
  | none => .ok default
  | some text => parse text

/-- Parse args for buffer configuration. The window only sizes a socket buffer and
    the priority only tunes the threads, but their texts may be refused. -/
def streamMtu (args : Kwargs) : Except Exn UInt64 := do
  let mtu ← numberArg env.stodSize args "remote:mtu" 1500
  let _window ← numberArg env.stodSize args "remote:window" (42 * 1024 * 1024)
  let _priority ← numberArg (fun t => (env.stod t).map some) args "remote:priority" none
  return mtu

/-- A failure of SETUP_STREAM after the device has set the stream up. -/
def failSetup {α : Type} (text : Bytes) : Handle W α := do
  record .failed
  throw text

def socketError (url : Bytes) (what : String) (errorMsg : Bytes) : Bytes :=
  ascii "SoapyRemote::setupStream(" ++ url ++ ascii ") -- " ++ ascii what ++ ascii " FAIL: " ++
    errorMsg

def socketStep {α : Type} (id : Int) (url : Bytes) (what : String)
    (call : Bytes → W → Except Bytes α × W) : Handle W α := do
  match ← outside (fun w => let (result, w') := call url w; (.ok result, w')) with
  | .ok a => return a
  | .error errorMsg =>
    eraseData id
    failSetup (socketError url what errorMsg)

def udpSockets (id : Int) (bindURL clientBindPort statusBindPort : Bytes) : Handle W Bytes := do
  let remoteNode := (SoapyURL.parse env.peername).node
  let sockname ← socketStep id bindURL "bind" env.bind
  socketStep id (SoapyURL.mk (ascii "udp") remoteNode clientBindPort).toString "connect" env.connect
  socketStep id (SoapyURL.mk (ascii "udp") remoteNode statusBindPort).toString "connect" env.connect
  return (SoapyURL.parse sockname).service

/-- In tcp mode send the binding port to the client ahead of the reply and accept
    its two connections. -/
def tcpSockets (id : Int) (bindURL : Bytes) : Handle W Bytes := do
  let sockname ← socketStep id bindURL "bind" env.bind
  let serverBindPort := (SoapyURL.parse sockname).service
  critical (env.sendPort (packString serverBindPort))
  Action.modify (fun s => { s with sent := s.sent ++ [packString serverBindPort] })
  let streamSock ← outside (fun w => let (ok, w') := env.accept w; (.ok ok, w'))
  let statusSock ← outside (fun w => let (ok, w') := env.accept w; (.ok ok, w'))
  if ¬ (streamSock ∧ statusSock) then
    failSetup (socketError bindURL "accept" (env.lastErrorMsg (← Action.get).world))
  return serverBindPort

/-- The constructor of `SoapyStreamEndpoint`. The transfer size of an mtu below 48
    wraps, and a vector of that size cannot be. -/
def createEndpoint (numChans : Nat) (elemSize mtu : UInt64) : Handle W Unit :=
  let xferSize := (mtu - 48).toNat
  if numChans = 0 ∨ elemSize = 0 then Action.stop .crashed
  else if 2 ^ 63 ≤ xferSize then failSetup (ascii "vector::_M_default_append")
  else critical (env.allocate xferSize)

/-- `SOAPY_SDR_TX` and `SOAPY_SDR_RX`. -/
def directionTX : Int32 := 0

def directionRX : Int32 := 1

/-- `startSendThread` for a receive stream and `startRecvThread` for a transmit
    stream; any other direction has no stream thread. -/
def startStreamThread (direction : Int32) (id : Int) (data : StreamData) : Handle W StreamData :=
  if direction = directionRX ∨ direction = directionTX then do
    let thread ← startThread env
    setData id { data with streamThread := some thread }
    return { data with streamThread := some thread }
  else return data

def startStatThread (id : Int) (data : StreamData) : Handle W StreamData := do
  let thread ← startThread env
  setData id { data with statusThread := some thread }
  return { data with statusThread := some thread }

def connectSockets (prot clientBindPort statusBindPort : Bytes) (id : Int) : Handle W Bytes :=
  let bindURL := (SoapyURL.mk prot (SoapyURL.parse env.sockname).node (ascii "0")).toString
  if prot = ascii "udp" then udpSockets env id bindURL clientBindPort statusBindPort
  else tcpSockets env id bindURL

def finishSetup (direction : Int32) (format : Bytes) (channels : List UInt64) (mtu : UInt64)
    (prot clientBindPort statusBindPort : Bytes) (id : Int) (data : StreamData) :
    Handle W Bytes := do
  let serverBindPort ← connectSockets env prot clientBindPort statusBindPort id
  createEndpoint env channels.length (formatToSize format) mtu
  let data ← startStreamThread env direction id data
  let _ ← startStatThread env id data
  return packInt (Int32.ofInt id) ++ packString serverBindPort

def setupStream (direction : Int32) (format : Bytes) (channels : List UInt64) (args : Kwargs)
    (clientBindPort statusBindPort : Bytes) : Handle W Bytes := do
  let mtu ← outside (fun w => (streamMtu env args, w))
  let prot := (args.find? (ascii "remote:prot")).getD (ascii "udp")
  let (id, data) ← openStream env direction format channels args
  finishSetup env direction format channels mtu prot clientBindPort statusBindPort id data

end Handle

/-- How each case packs the result of the method: a `size_t` or an unsigned is
    cast to an int, a list of unsigned goes through a list of sizes. -/
def DeviceCall.packResult (remoteRPCVersion : UInt32) : (c : DeviceCall) → c.Result → Bytes
  | .setFrontendMapping .., _ | .setAntenna .., _ | .setDCOffsetMode .., _ | .setDCOffset .., _
  | .setIQBalance .., _ | .setIQBalanceMode .., _ | .setFrequencyCorrection .., _
  | .setGainMode .., _ | .setGain .., _ | .setGainElement .., _ | .setFrequency .., _
  | .setFrequencyComponent .., _ | .setSampleRate .., _ | .setBandwidth .., _
  | .setMasterClockRate .., _ | .setReferenceClockRate .., _ | .setClockSource .., _
  | .setTimeSource .., _ | .setHardwareTime .., _ | .setCommandTime .., _
  | .writeRegisterNamed .., _ | .writeRegister .., _ | .writeRegisters .., _
  | .writeSetting .., _ | .writeChannelSetting .., _ | DeviceCall.writeGPIO .., _
  | .writeGPIOMasked .., _ | .writeGPIODir .., _ | .writeGPIODirMasked .., _ | .writeI2C .., _ | .writeUART .., _ =>
    packType .VOID
  | .getFullDuplex .., r | .hasDCOffsetMode .., r | .getDCOffsetMode .., r | .hasDCOffset .., r
  | .hasIQBalance .., r | .hasFrequencyCorrection .., r | .hasIQBalanceMode .., r
  | .getIQBalanceMode .., r | .hasGainMode .., r | .getGainMode .., r
  | .hasHardwareTime .., r => packBool r
  | .getNumChannels .., r => packCount r
  | .readRegisterNamed .., r | .readRegister .., r | DeviceCall.readGPIO .., r | .readGPIODir .., r
  | .transactSPI .., r => packWord r
  | .getHardwareTime .., r => packLongLong r
  | .getFrequencyCorrection .., r | .getGain .., r | .getGainElement .., r | .getFrequency .., r
  | .getFrequencyComponent .., r | .getSampleRate .., r | .getBandwidth .., r
  | .getMasterClockRate, r | .getReferenceClockRate, r => packDouble r
  | .getDCOffset .., r | .getIQBalance .., r => packComplex r
  | .getDriverKey, r | .getHardwareKey, r | .getFrontendMapping .., r | .getAntenna .., r
  | .getClockSource, r | .getTimeSource, r | .readSensor .., r | .readChannelSensor .., r
  | .readSetting .., r | .readChannelSetting .., r | .readI2C .., r
  | .readUART .., r => packString r
  | .getHardwareInfo, r | .getChannelInfo .., r => packKwargs r
  | .getGainRange .., r | .getGainRangeElement .., r => packRange remoteRPCVersion r
  | .getSensorInfo .., r | .getChannelSensorInfo .., r => packArgInfo remoteRPCVersion r
  | .listAntennas .., r | .listGains .., r | .listFrequencies .., r | .listClockSources, r
  | .listTimeSources, r | .listSensors, r | .listChannelSensors .., r
  | .listRegisterInterfaces, r | .listGPIOBanks, r | .listUARTs, r => packStringList r
  | .listSampleRates .., r | .listBandwidths .., r => packDoubleList r
  | .readRegisters .., r => packSizeList (r.map UInt32.toUInt64)
  | .getFrequencyRange .., r | .getFrequencyRangeComponent .., r | .getSampleRateRange .., r
  | .getBandwidthRange .., r | .getMasterClockRates, r
  | .getReferenceClockRates, r => packRangeList remoteRPCVersion r
  | .getFrequencyArgsInfo .., r | .getSettingInfo, r
  | .getChannelSettingInfo .., r => packArgInfoList remoteRPCVersion r

/-- The server version is inserted using the `remote:` key prefix. -/
def DeviceCall.served (serverVersion : Bytes) : (c : DeviceCall) → c.Result → c.Result
  | .getHardwareInfo, info => OrdMap.insert info (ascii "remote:version") serverVersion
  | _, r => r

def StreamQuery.packResult (remoteRPCVersion : UInt32) : (q : StreamQuery) → q.Result → Bytes
  | .getStreamFormats .., r => packStringList r
  | .getNativeStreamFormat .., r => packString r.1 ++ packDouble r.2
  | .getStreamArgsInfo .., r => packArgInfoList remoteRPCVersion r

/-- `return call != SOAPY_REMOTE_HANGUP`. -/
def Request.again : Request → Bool
  | .hangup => false
  | _ => true

namespace Handle

variable {W : Type} (env : World W)

/-- `_dev->method(...)`. -/
def callMethod (c : DeviceCall) : Handle W c.Result := do
  let dev ← device
  Action.modify (fun s => { s with calls := s.calls ++ [c] })
  outside (env.method dev c)

/-- `_streamData.at(streamId)`. -/
def dataAt (streamId : Int32) : Handle W StreamData := do
  match (← Action.get).streamData.find? streamId.toInt with
  | some data => return data
  | none => throw (ascii "map::at")

def closeEntry (data : StreamData) : Handle W Unit := do
  stopThreads data
  closeStream env data

def closeAll : Handle W Unit := do
  Action.forEach (fun entry => closeEntry env entry.2) (← Action.get).streamData.entries

def unmakeDevice : Handle W Unit := do
  match (← Action.get).dev with
  | some dev =>
    Action.modify (fun s => { s with world := env.unmake dev s.world, dev := none })
  | none => pure ()

/-- What a request does once its arguments are unpacked, and the payload of the
    reply. -/
def perform (remoteRPCVersion : UInt32) : Request → Handle W Bytes
  | .find args => do return packKwargsList (← outside (env.enumerate args))
  | .make args => do
    if (← Action.get).dev.isNone then
      let dev ← outside (env.make args)
      Action.modify (fun s => { s with dev := some dev })
    return packType .VOID
  | .unmake => do
    closeAll env
    Action.modify (fun s => { s with streamData := .empty })
    unmakeDevice env
    return packType .VOID
  | .hangup => return packType .VOID
  | .getServerId => return packString env.uuid
  | .startLogForwarding => do
    Action.modify (fun s => { s with logForwarder := true })
    return packType .VOID
  | .stopLogForwarding => do
    Action.modify (fun s => { s with logForwarder := false })
    return packType .VOID
  | .device c => do
    let r ← callMethod env c
    return c.packResult remoteRPCVersion (c.served env.serverVersion r)
  | .query q => do
    let dev ← device
    return q.packResult remoteRPCVersion (← outside (env.query dev q))
  | .setupStream direction format channels args clientBindPort statusBindPort =>
    setupStream env direction format channels args clientBindPort statusBindPort
  | .closeStream streamId => do
    let data ← dataAt streamId
    closeEntry env data
    eraseData streamId.toInt
    return packType .VOID
  | .activateStream streamId flags timeNs numElems => do
    let data ← dataAt streamId
    let dev ← device
    return packInt (← outside (env.activateStream dev data.stream flags timeNs numElems))
  | .deactivateStream streamId flags timeNs => do
    let data ← dataAt streamId
    let dev ← device
    return packInt (← outside (env.deactivateStream dev data.stream flags timeNs))
  | .setupStreamBypass direction format channels args => do
    let (id, _) ← openStream env direction format channels args
    return packInt (Int32.ofInt id)

def dispatch (u : Unpacker) : Handle W (Bool × Bytes) :=
  match Program.run Unpacker.exec Unpack.request u with
  | (.error e, _) => Action.stop (.thrown e)
  | (.ok request, _) => do
    let reply ← perform env u.remoteRPCVersion request
    return (request.again, reply)

theorem dispatch_read {u u' : Unpacker} {request : Request}
    (decoded : Program.run Unpacker.exec Unpack.request u = (.ok request, u')) :
    dispatch env u = (do
      let reply ← perform env u.remoteRPCVersion request
      return (request.again, reply)) := by
  rw [dispatch, decoded]

theorem dispatch_refused {u u' : Unpacker} {e : Exn}
    (refused : Program.run Unpacker.exec Unpack.request u = (.error e, u')) :
    dispatch env u = Action.stop (.thrown e) := by
  rw [dispatch, refused]

/-- `handleOnce` once a message has been received: an exception becomes the reply. -/
def handleOnce (u : Unpacker) : Handle W Bool := do
  let (again, reply) ← Action.rescue (dispatch env u) (fun
    | .thrown e => return (true, packException e)
    | .crashed => Action.stop .crashed)
  Action.modify (fun s => { s with sent := s.sent ++ [reply] })
  return again

/-- `~SoapyClientHandler`. Nothing may be thrown out of it. -/
def destroy : Handle W Unit :=
  Action.rescue (do
    closeAll env
    unmakeDevice env
    Action.modify (fun s => { s with logForwarder := false })) (fun _ => Action.stop .crashed)

end Handle

end Soapy.Remote
