import PscDigpid.Sync.Run
import PscDigpid.Sync.Ticks
import PscDigpid.Sync.Persistence
import PscDigpid.Sync.Exec
import PscDigpid.Sync.Writes
import PscDigpid.Sync.Ledger
import PscDigpid.Sync.Clamp
import PscDigpid.Sync.Circular
import PscDigpid.Sync.Scaled
import PscDigpid.Hdl.FaultBlock
import PscDigpid.Hdl.FaultChecks
import PscDigpid.Hdl.FaultPersistence
import PscDigpid.Hdl.FaultClear
import PscDigpid.Hdl.FaultReset
import PscDigpid.Hdl.DigioLogic
import PscDigpid.Hdl.FaultModule
import PscDigpid.Hdl.AnalogChecks
import PscDigpid.Hdl.Interlock
import PscDigpid.Hdl.OnFault
import PscDigpid.Hdl.TenkhzMux
import PscDigpid.Hdl.AdcLtc2376
import PscDigpid.Hdl.AdcWords
import PscDigpid.Hdl.DcctAdcModule
import PscDigpid.Hdl.PsIo
import PscDigpid.Hdl.SmoothRamp
import PscDigpid.Hdl.SmoothRampLaw
import PscDigpid.Hdl.SmoothRampEnd
import PscDigpid.Hdl.SmoothRampDuration
import PscDigpid.Hdl.SmoothDeferral
import PscDigpid.Hdl.DacChan
import PscDigpid.Hdl.DacLimit
import PscDigpid.Hdl.DacSaturation
import PscDigpid.Hdl.SmoothStart
import PscDigpid.Hdl.RampPlayback
import PscDigpid.Hdl.DacCtrlr
import PscDigpid.Hdl.DacSerial
import PscDigpid.Hdl.DacFrames
import PscDigpid.Hdl.AxiBurst
import PscDigpid.Hdl.SnapshotRing
import PscDigpid.Hdl.TriggerLatch
import PscDigpid.Hdl.Average
import PscDigpid.Hdl.AverageWindow
import PscDigpid.Hdl.AverageModes
import PscDigpid.Hdl.AdcAccumulator
import PscDigpid.Hdl.MonGainoffset
import PscDigpid.Hdl.CalibrationOrder
import PscDigpid.Num.Single
import PscDigpid.Sw.Board
import PscDigpid.Sw.Control
import PscDigpid.Sw.ClientMsg
import PscDigpid.Sw.FaultLimits
import PscDigpid.Sw.Sdcard
import PscDigpid.Sw.SetDacRange
import PscDigpid.Sw.SmoothSamples
import PscDigpid.Sw.RampTable
import PscDigpid.Sw.RampTableClamp
import PscDigpid.Sw.SmoothIncrement
import PscDigpid.Sw.ModeChange
import PscDigpid.Sw.QspiRoundTrip
import PscDigpid.Sw.OwnBytes
import PscDigpid.Sw.Sadata
import PscDigpid.Sw.Averages
import PscDigpid.Sw.Settings
import PscDigpid.Sw.SettingCounts
import PscDigpid.Sw.SettingReadback
import PscDigpid.Sw.LimitOrder
import PscDigpid.Sw.Snapshots
import PscDigpid.Sw.SnapshotWindow
import PscDigpid.Sw.SnapshotCopy
import PscDigpid.Sw.SnapshotDecode
import PscDigpid.Sw.SnapshotCache
import PscDigpid.Hdl.BurstPages
import PscDigpid.Sw.SnapshotPush
import PscDigpid.Sw.TriggerWaveforms
import PscDigpid.Sw.TriggerDetection
import PscDigpid.Sw.Pscmsg
import PscDigpid.Sw.PscFraming
import PscDigpid.Sw.SkipBuffer
import PscDigpid.Sw.RampMessage
import PscDigpid.Sw.Listener
import PscDigpid.Sw.ListenerSlots
import PscDigpid.Sw.ListenerSockets
import PscDigpid.Sw.ListenerStreams
import PscDigpid.Sw.ListenerCloses
import PscDigpid.Sw.ListenerLive
import PscDigpid.Hdl.AverageSum
import PscDigpid.Hdl.EventRcvTs
import PscDigpid.Hdl.EventRcvChan
import PscDigpid.Sync.Chunks
import PscDigpid.Sync.RefCount
import PscDigpid.Sw.Discover
import PscDigpid.Sw.DiscoverLeaks
import PscDigpid.Sw.Hwaddr
import PscDigpid.Sw.Netconf
import PscDigpid.Sw.NetconfLines
import PscDigpid.Sw.NetconfResolution
import PscDigpid.Sw.Console
import PscDigpid.Sw.ConsoleReach
import PscDigpid.Hdl.AdcAds8568Intf
import PscDigpid.Hdl.AdcAds8568Reads
import PscDigpid.Sw.MenuIpaddr
import PscDigpid.Sync.Staged
import PscDigpid.Hdl.Adc8chModule
import PscDigpid.Hdl.MonReadings
import PscDigpid.Hdl.DcctReadings
import PscDigpid.Hdl.Acquisition
import PscDigpid.Hdl.InterlockLaw
import PscDigpid.Hdl.DacTransfer
import PscDigpid.Hdl.DacOutput
import PscDigpid.Hdl.RampOutput
import PscDigpid.Sw.RampToConverter
import PscDigpid.Sync.Crossing
import PscDigpid.Sync.OneShot
import PscDigpid.Hdl.EvrTop
import PscDigpid.Hdl.EvrTriggers
import PscDigpid.Hdl.EvrPulses
import PscDigpid.Sw.Tftp
import PscDigpid.Sw.TftpSession
import PscDigpid.Sw.TftpHandler
import PscDigpid.Sw.TftpUpload
import PscDigpid.Sw.TftpDownload
import PscDigpid.Sw.TftpCalls
import PscDigpid.Sw.TftpRequest
import PscDigpid.Hdl.SnapshotRecords
import PscDigpid.Sw.SnapshotMessage
import PscDigpid.Hdl.Recording
import PscDigpid.Sw.RecordedWaveform
