import Soapy.Remote.EndpointRing
import Soapy.Remote.FlowProgress
import Soapy.Remote.ReplyPairing
import Soapy.Remote.StreamLifeCycle
import Soapy.Remote.UnpackerBounds
import Soapy.Remote.LogForwarding
import Soapy.SDR.DeviceTable
import Soapy.Lime.ReceiveFifo
import Soapy.Lime.RegisterCache
import Soapy.Lime.FailedTransfers
import Soapy.Lime.LMS64CRegisters
import Soapy.Lime.TransmitRuns
import Soapy.Rtl.StubTransparency
import Soapy.Receive.HackRFRuns
import Soapy.Receive.SDRPlayRuns
import Soapy.Rtl.AsyncReadRuns
import Soapy.Rtl.MuxQueries
import Soapy.Rtl.MuxStream
import Soapy.Multi.Routing
import Soapy.Receive.AirspyLifeCycle
import Soapy.Receive.AirspyRuns
import Soapy.Remote.ControlRecords
import Soapy.Remote.EndOfStream
import Soapy.Remote.EndpointArithmetic
import Soapy.Remote.ReadStream
import Soapy.Remote.RecordBounds
import Soapy.Remote.SendEndpointWork
import Soapy.Remote.DiscoverServers
import Soapy.Remote.HTTPFields
import Soapy.Remote.Registration
import Soapy.SDR.KwargsMarkup
import Soapy.Remote.SSDPAnnouncements
import Soapy.SDR.ListMakeRuns
import Soapy.SDR.TimeConversion
import Soapy.Lime.LMS64CProgramRuns
import Soapy.Lime.LMS64CStatus
import Soapy.SDR.Distribution
import Soapy.SDR.KwargsContainer
import Soapy.Lime.FpgaCache
import Soapy.Lime.FpgaUnpacking
import Soapy.Lime.RegisterMapRestore
import Soapy.Lime.InterfaceCalibration
import Soapy.Lime.PllWords
import Soapy.Lime.Synchronized
import Soapy.Rtl.MsgCodec
import Soapy.Rtl.R82xxPllRange
import Soapy.Rtl.SampleRate
import Soapy.Lime.ConfigRoundTrip
import Soapy.Lime.NCORetention
import Soapy.Rtl.DeviceIndex
import Soapy.Rtl.Eeprom
import Soapy.Rtl.EepromConfig
import Soapy.Rtl.OptionString
import Soapy.Rtl.R82xxGains
import Soapy.Rtl.SampleList
import Soapy.Rtl.UdpParse
import Soapy.Rtl.SoftAgcProgress
import Soapy.Rtl.TcpCommands
import Soapy.Receive.RTLSDRSwap
import Soapy.Receive.RTLSDRTicks
import Soapy.Rtl.WaveRoundTrip
import Soapy.Transmit.HackRFBurst
import Soapy.Rtl.AdsbSignals
import Soapy.Rtl.PowerCoverage
import Soapy.Rtl.SoftAgcStatistics
import Soapy.Multi.Registration
import Soapy.Multi.Streaming
import Soapy.Receive.IqConverter
import Soapy.Receive.SDRPlayStreams
import Soapy.Receive.NetSDR
import Soapy.Transmit.PlutoLoops
import Soapy.Transmit.PlutoBuffer
