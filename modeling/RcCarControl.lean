import RcCarControl.Lib.Runs
import RcCarControl.Driver.RxCtrl
import RcCarControl.Driver.Buffers
import RcCarControl.Driver.Ownership
import RcCarControl.Driver.StopRace
import RcCarControl.Driver.FrameInterrupt
import RcCarControl.Fpga.AsyncFifo
import RcCarControl.Fpga.FifoOrder
import RcCarControl.Fpga.StreamReader
import RcCarControl.Fpga.StreamOrder
import RcCarControl.Fpga.StreamStart
import RcCarControl.Interface.Messages
import RcCarControl.Daemon.Server
import RcCarControl.Daemon.ProcessData
import RcCarControl.Daemon.Requests
import RcCarControl.Daemon.Registration
import RcCarControl.Daemon.Drive
import RcCarControl.Daemon.InitGate
import RcCarControl.Daemon.Segmentation
import RcCarControl.Video.ReadVideoStream
import RcCarControl.Video.Streamer
import RcCarControl.Video.Delivery
import RcCarControl.Video.Packets
import RcCarControl.Video.FrameMemory
import RcCarControl.Video.CleanUp
import RcCarControl.Video.FrameVector
import RcCarControl.Video.Reassembly
import RcCarControl.Fpga.AxiLite
import RcCarControl.Lib.RegisterFile
import RcCarControl.Fpga.AxiResponses
import RcCarControl.Fpga.AxiRefinement
import RcCarControl.Fpga.AxiRegisters
import RcCarControl.Fpga.Bt656
import RcCarControl.Fpga.Bt656Bytes
import RcCarControl.Fpga.AxiStreamTpGen
import RcCarControl.Lib.Framing
import RcCarControl.Fpga.TpFrames
import RcCarControl.Driver.RingSafety
import RcCarControl.Driver.StartFailure
import RcCarControl.Driver.SharedLine
import RcCarControl.Daemon.LogSubscribers
import RcCarControl.Interface.Client
import RcCarControl.Interface.Connecting
import RcCarControl.Daemon.Link
import RcCarControl.Daemon.Lockstep
import RcCarControl.Daemon.LogTransfer
import RcCarControl.Daemon.Acknowledge
import RcCarControl.Daemon.Atomicity
import RcCarControl.Daemon.StackBytes
import RcCarControl.Daemon.SelectSet
import RcCarControl.Daemon.Descriptors
import RcCarControl.Fpga.PwmGen
import RcCarControl.Daemon.SysCtrl
import RcCarControl.Fpga.SysCtrlTop
import RcCarControl.Fpga.SystemTop
import RcCarControl.Lib.ReadyValid
import RcCarControl.Fpga.StreamHandshake
import RcCarControl.Driver.Formats
import RcCarControl.Driver.Probe
import RcCarControl.Daemon.Rejection
import RcCarControl.Daemon.Recovery
import RcCarControl.Fpga.SyncPulse
import RcCarControl.Fpga.FrameMark
import RcCarControl.Driver.PointerCodec
import RcCarControl.Driver.SizeStats
import RcCarControl.Fpga.PwmPeriods
import RcCarControl.Fpga.PulseTransfer
import RcCarControl.Fpga.TpStop
import RcCarControl.Fpga.MeasFrames
import RcCarControl.Fpga.PureBt656
import RcCarControl.Fpga.SizeCounters
import RcCarControl.Fpga.SizeErrors
import RcCarControl.Fpga.FrameSize
import RcCarControl.Fpga.GrayPointers
import RcCarControl.Daemon.I2cCtrl
import RcCarControl.Video.ImgProc
import RcCarControl.Daemon.Ov5642Ctrl
import RcCarControl.Daemon.RccDaemon
import RcCarControl.Video.JpegFrameParser
import RcCarControl.Video.JpegPasses
import RcCarControl.Video.JpegSafety
import RcCarControl.Video.JpegSegments
import RcCarControl.Video.LiveCamDeviceSource
import RcCarControl.Driver.LiveStats
import RcCarControl.Fpga.Bt656ToAxiStream
import RcCarControl.Daemon.DrivePath
import RcCarControl.Driver.FrameOrder
import RcCarControl.Driver.CameraSession
