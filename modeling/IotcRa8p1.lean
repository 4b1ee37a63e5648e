import IotcRa8p1.Lib.Machine
import IotcRa8p1.ModelStore.Persistence
import IotcRa8p1.App.ModelPush
import IotcRa8p1.ModelStore.Packer
import IotcRa8p1.Vision.FaceDetection
import IotcRa8p1.Lib.Loop
import IotcRa8p1.Vision.System
import IotcRa8p1.Vision.Restore
import IotcRa8p1.Vision.Inference
import IotcRa8p1.Vision.Reboot
import IotcRa8p1.Vision.Tasks
import IotcRa8p1.Vision.Handoff
import IotcRa8p1.Vision.Revert
import IotcRa8p1.Lib.RecMutex
import IotcRa8p1.Mqtt.Client
import IotcRa8p1.Mqtt.Session
import IotcRa8p1.Mqtt.Lifecycle
import IotcRa8p1.Vision.Atomic
import IotcRa8p1.App.Time
import IotcRa8p1.App.Cli
import IotcRa8p1.Kvs.Timeouts
import IotcRa8p1.App.Config
import IotcRa8p1.App.PemLines
import IotcRa8p1.App.PemCapture
import IotcRa8p1.App.Provisioning
import IotcRa8p1.App.Sdk
import IotcRa8p1.App.Poll
import IotcRa8p1.App.Scheduling
import IotcRa8p1.App.Restart
import IotcRa8p1.App.Acks
import IotcRa8p1.Kvs.Shim
import IotcRa8p1.Kvs.Select
import IotcRa8p1.Kvs.SlotTable
import IotcRa8p1.Kvs.Identity
import IotcRa8p1.Kvs.Lifetime
import IotcRa8p1.App.Console
import IotcRa8p1.Vision.BoxDraw
import IotcRa8p1.Vision.ZipUnwrap
import IotcRa8p1.Kvs.DontWait
import IotcRa8p1.Kvs.Send
import IotcRa8p1.App.Snapshot
import IotcRa8p1.App.Backoff
import IotcRa8p1.Mqtt.Config
import IotcRa8p1.App.C2d
import IotcRa8p1.Lib.Crc
import IotcRa8p1.Lib.Reading
import IotcRa8p1.ModelStore.Validate
import IotcRa8p1.App.SigV4
import IotcRa8p1.Lib.Urlencoded
import IotcRa8p1.App.AssumeRole
import IotcRa8p1.App.FileUpload
import IotcRa8p1.App.UploadAnnounce
import IotcRa8p1.App.UploadResult
import IotcRa8p1.App.UploadBucket
import IotcRa8p1.App.ClockGettime
import IotcRa8p1.App.ConsoleErrors
import IotcRa8p1.App.PemBlock
import IotcRa8p1.Lib.Buffer
import IotcRa8p1.App.PemBuffer
import IotcRa8p1.App.ConfigErrors
import IotcRa8p1.Lib.Zlib
import IotcRa8p1.Lib.Png
import IotcRa8p1.App.PngGray
import IotcRa8p1.App.PngEncode
import IotcRa8p1.App.PngFile
import IotcRa8p1.App.RxRing
import IotcRa8p1.Lib.Raster
import IotcRa8p1.Vision.Camera
import IotcRa8p1.Vision.Overlay
import IotcRa8p1.Lib.Greedy
import IotcRa8p1.Vision.Nms
import IotcRa8p1.Kvs.IdentityParse
import IotcRa8p1.Kvs.Supervisor
import IotcRa8p1.Lib.Annexb
import IotcRa8p1.Media.H264
import IotcRa8p1.Media.H264Units
import IotcRa8p1.Media.H264Payloads
import IotcRa8p1.Media.H264Frames
import IotcRa8p1.Media.H264Pipeline
import IotcRa8p1.Lib.BitField
import IotcRa8p1.Media.Rtp
import IotcRa8p1.Media.RtpRoundTrip
import IotcRa8p1.Media.PktQueue
import IotcRa8p1.Media.Rolling
import IotcRa8p1.Media.VideoSender
import IotcRa8p1.Media.VideoSenderKept
import IotcRa8p1.Media.VideoSenderRuns
import IotcRa8p1.Media.VideoDelivery
import IotcRa8p1.Kvs.QuickSort
import IotcRa8p1.Kvs.SigV4Headers
import IotcRa8p1.Lib.SlidingWindow
import IotcRa8p1.Media.Rdbx
import IotcRa8p1.Media.Unprotect
import IotcRa8p1.Ice.Stun
import IotcRa8p1.Ice.StunPacket
import IotcRa8p1.Ice.StunAccepted
import IotcRa8p1.Ice.Nomination
import IotcRa8p1.Ice.ChannelData
import IotcRa8p1.Ice.Binding
import IotcRa8p1.Ice.NominationAgreed
import IotcRa8p1.Ice.Turn
import IotcRa8p1.Ice.PairList
import IotcRa8p1.Ice.TransactionIdStore
