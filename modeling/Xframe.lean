import Xframe.Comserv.ExpireRuns
import Xframe.Comserv.HashRefines
import Xframe.Comserv.CListRuns
import Xframe.Comserv.RegExpLanguage
import Xframe.Kernel.DialogDelivery
import Xframe.Kernel.TimerFiring
import Xframe.Kernel.FrameCtrl
import Xframe.Kernel.LoadBalance
import Xframe.Task.TaskContainer
import Xframe.Task.ContextLifeCycle
import Xframe.Facility.MqttStream
import Xframe.Facility.MqttAcks
import Xframe.Facility.MqttFraming
import Xframe.Facility.MqttHandshake
import Xframe.Transport.FinalResponse
import Xframe.Transport.ResendTimer
import Xframe.Facility.PsaRscTask
import Xframe.Facility.SipDialog
import Xframe.Transport.UdpBounds
import Xframe.Msg.RscCodec
import Xframe.Comserv.SocketStream
import Xframe.Comserv.SocketBackup
import Xframe.Comserv.SocketRoundTrip
import Xframe.Comserv.SocketRobust
import Xframe.Comserv.BufferQueue
import Xframe.Comserv.TcpConnections
import Xframe.Comserv.CStrRuns
import Xframe.Kernel.CopyingDispatch
import Xframe.Comserv.ExpireReset
import Xframe.Comserv.ExpireBounded
import Xframe.Comserv.HashTraversal
import Xframe.Facility.MqttLength
import Xframe.Facility.MqttFields
import Xframe.Facility.MqttIds
import Xframe.Facility.MqttKeepalive
import Xframe.Kernel.TimerParameters
import Xframe.Transport.UdpBinds
import Xframe.Facility.RscRouting
import Xframe.Facility.PsaRscInit
import Xframe.Comserv.HashSequence
import Xframe.Facility.MqttTcpSend
import Xframe.Facility.MqttSupervision
import Xframe.Comserv.OverflowGuard
import Xframe.Comserv.FifoClasses
import Xframe.Comserv.JsonRoundTrip
import Xframe.Comserv.RWMutex
import Xframe.Comserv.RegExpBounds
import Xframe.Task.ReleaseContext
import Xframe.Msg.EncodedSizes
import Xframe.Msg.UriSetters
import Xframe.Comserv.CVectorRefines
import Xframe.Comserv.CRegExp
import Xframe.Comserv.CVectorResize
import Xframe.Comserv.CListInsert
import Xframe.Comserv.CListSorted
import Xframe.Comserv.CStrShort
import Xframe.Msg.AddressText
import Xframe.Comserv.CStrTransfer
import Xframe.Comserv.Base64RoundTrip
import Xframe.Comserv.Base64Bounds
import Xframe.Comserv.TimeInterval
import Xframe.Comserv.ArgSplit
import Xframe.Comserv.UricCodec
import Xframe.Facility.ValidIPv4
import Xframe.Lib.Feistel
import Xframe.Comserv.Des
import Xframe.Comserv.DesBits
import Xframe.Comserv.DesInverse
import Xframe.Lib.Monitor
import Xframe.Msg.FieldLaws
