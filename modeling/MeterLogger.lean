import MeterLogger.Runs
import MeterLogger.MessageQueue
import MeterLogger.MqttMessage
import MeterLogger.MqttUtils
import MeterLogger.MqttClient
import MeterLogger.QueuedPackets
import MeterLogger.MqttDelivery
import MeterLogger.MqttFrames
import MeterLogger.MqttReceive
import MeterLogger.MqttRecovery
import MeterLogger.MqttBroker
import MeterLogger.MqttSession
import MeterLogger.MqttMoves
import MeterLogger.MqttExactlyOnce
import MeterLogger.FlashWriter
import MeterLogger.CStrings
import MeterLogger.OtaHeader
import MeterLogger.MeterFifo
import MeterLogger.Buffers
import MeterLogger.Crc16
import MeterLogger.Kmp
import MeterLogger.KmpReceive
import MeterLogger.Decimal
import MeterLogger.KmpText
import MeterLogger.KmpSample
import MeterLogger.KmpEnergy
import MeterLogger.Cbc
import MeterLogger.AesCbc
import MeterLogger.Crypto
import MeterLogger.MqttDataCb
import MeterLogger.UnixTime
import MeterLogger.ReplayWindow
import MeterLogger.OtaMachine
import MeterLogger.OtaIntegrity
import MeterLogger.OtaReceive
import MeterLogger.OtaStaging
import MeterLogger.OtaSegments
import MeterLogger.OtaFlash
import MeterLogger.OtaFailure
import MeterLogger.Config
import MeterLogger.AcOut
import MeterLogger.OpenUntil
import MeterLogger.En61107
import MeterLogger.En61107Request
import MeterLogger.En61107Progress
import MeterLogger.En61107Samples
import MeterLogger.IdCounter
import MeterLogger.MqttPacketIds
import MeterLogger.MqttKeepalive
import MeterLogger.Handshake
import MeterLogger.MqttInbound
import MeterLogger.MqttInboundStream
import MeterLogger.MqttInboundOnce
import MeterLogger.OtaBoot
import MeterLogger.OtaSlots
import MeterLogger.CharArray
import MeterLogger.SysCfg
import MeterLogger.ConfigCommands
import MeterLogger.ConfigStrings
import MeterLogger.Calendar
import MeterLogger.Cron
import MeterLogger.Credentials
import MeterLogger.ConfigViews
import MeterLogger.Watchdog
import MeterLogger.ApNetwork
import MeterLogger.Wifi
import MeterLogger.WifiSystem
import MeterLogger.WifiFallback
import MeterLogger.WifiTest
import MeterLogger.WifiUndo
import MeterLogger.RescueAp
import MeterLogger.OtaAttempts
import MeterLogger.MqttAck
import MeterLogger.WifiScanner
import MeterLogger.Noted
import MeterLogger.AesAccess
import MeterLogger.CryptoGenuine
import MeterLogger.KmpAccess
import MeterLogger.KmpCovered
import MeterLogger.KmpRecords
import MeterLogger.KmpRendering
import MeterLogger.KmpRequest
import MeterLogger.En61107Frames
import MeterLogger.Scaling
import MeterLogger.OpenUntilVolume
import MeterLogger.Codes
import MeterLogger.QueryStringRoundTrip
import MeterLogger.SummerTime
import MeterLogger.ExtendedTime
import MeterLogger.OtaNumbers
import MeterLogger.OtaLookup
import MeterLogger.CronQuery
import MeterLogger.OtaRange
import MeterLogger.En61107Registers
import MeterLogger.HexDigits
import MeterLogger.IcmpPing
import MeterLogger.BrokerAddress
import MeterLogger.StackTrace
import MeterLogger.WebSetup
import MeterLogger.OtaUrl
import MeterLogger.Aes
import MeterLogger.BlockStream
import MeterLogger.HmacSha256
import MeterLogger.EspFs
import MeterLogger.HttpdEspFs
