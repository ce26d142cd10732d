import Serial2Redis.Library.ReflectedCrc
import Serial2Redis.Library.ErrorDetection
import Serial2Redis.Library.Transducer
import Serial2Redis.Library.DelimitedRuns
import Serial2Redis.Library.RunReader
import Serial2Redis.Library.GuardedRun
import Serial2Redis.Library.Ledger
import Serial2Redis.Library.ByteStuffing
import Serial2Redis.Library.ListSearch
import Serial2Redis.Library.BinaryFloat
import Serial2Redis.Basic
import Serial2Redis.Crc16
import Serial2Redis.Crc16Errors
import Serial2Redis.Framing
import Serial2Redis.FramingRuns
import Serial2Redis.CrlfFlows
import Serial2Redis.CrlfLink
import Serial2Redis.CborFlows
import Serial2Redis.Translators
import Serial2Redis.RawText
import Serial2Redis.WsProxy
import Serial2Redis.FrontEnds
import Serial2Redis.Udp
import Serial2Redis.Udp2Redis
import Serial2Redis.Udp2RedisCleanup
import Serial2Redis.Serial
import Serial2Redis.SessionSerial
import Serial2Redis.SerialReception
import Serial2Redis.SerialTransmission
import Serial2Redis.SerialQueue
import Serial2Redis.PublishAlive
import Serial2Redis.SerialFrame
import Serial2Redis.SerialPubSub
import Serial2Redis.PubSubLink
import Serial2Redis.LoopbackLatency
import Serial2Redis.PubSubSketch
import Serial2Redis.SerialBridge
import Serial2Redis.UdpAccounting
import Serial2Redis.Library.RoundRobin
import Serial2Redis.Library.Halving
import Serial2Redis.UdpServer
import Serial2Redis.WsAccounting
import Serial2Redis.Sema
import Serial2Redis.Poller
import Serial2Redis.Wifi
import Serial2Redis.UdpFrame
import Serial2Redis.Neo6m
import Serial2Redis.Uext
import Serial2Redis.UltraSonic
