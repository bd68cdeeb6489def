import OneSdk.Runs
import OneSdk.MqttPublish
import OneSdk.DeliveryQueue
import OneSdk.MqttQueue
import OneSdk.MqttSubscribe
import OneSdk.MqttCallback
import OneSdk.Outbox
import OneSdk.MqttClient
import OneSdk.MqttOutbox
import OneSdk.MqttDelivery
import OneSdk.OutboxOrder
import OneSdk.MqttOrder
import OneSdk.MqttResubscribe
import OneSdk.MqttWakeup
import OneSdk.TopicFilter
import OneSdk.MqttRouting
import OneSdk.Framing
import OneSdk.Chunking
import OneSdk.CString
import OneSdk.HttpLibs
import OneSdk.HttpClient
import OneSdk.HttpTerminal
import OneSdk.SseSplit
import OneSdk.SseTidy
import OneSdk.Emits
import OneSdk.OtaTypes
import OneSdk.OtaDownload
import OneSdk.OtaVerified
import OneSdk.OtaReports
import OneSdk.McpClient
import OneSdk.McpCorrelation
import OneSdk.McpCalls
import OneSdk.McpInitialized
import OneSdk.MqttPending
import OneSdk.FirstBinding
import OneSdk.MqttSubscriptions
import OneSdk.Crossing
import OneSdk.SseFitting
import OneSdk.LogPipeline
import OneSdk.LogDiscipline
import OneSdk.Lifetimes
import OneSdk.OtaRestart
import OneSdk.HttpProcess
import OneSdk.HttpIndependence
import OneSdk.Memory
import OneSdk.ChatText
import OneSdk.ChatWait
import OneSdk.StreamParse
import OneSdk.RtReceive
import OneSdk.RtFragments
import OneSdk.KeyedList
import OneSdk.KvStore
import OneSdk.SseBounds
import OneSdk.KvMap
import OneSdk.KvCrash
import OneSdk.RealtimeWs
import OneSdk.RealtimeSend
import OneSdk.RtRecovery
import OneSdk.TmSend
import OneSdk.TmReport
import OneSdk.DynReg
import OneSdk.LlmConfig
import OneSdk.Accesses
import OneSdk.SdkLifecycle
import OneSdk.SdkOwnership
import OneSdk.SdkCycles
import OneSdk.SdkSafety
import OneSdk.SseFields
import OneSdk.SseIsolation
import OneSdk.Blocks
import OneSdk.HttpBody
import OneSdk.SseBuffer
import OneSdk.MqttAtomic
import OneSdk.OtaProgress
import OneSdk.HttpHeaders
import OneSdk.HttpTls
import OneSdk.OtaKeys
import OneSdk.McpSafety
import OneSdk.AesDecode
import OneSdk.ChatCredential
import OneSdk.RequestSignature
import OneSdk.ChatAnswer
import OneSdk.ChatParse
import OneSdk.DownloadFile
import OneSdk.RtMemory
import OneSdk.TmTopics
import OneSdk.TmCustomTopic
import OneSdk.TmReplies
import OneSdk.McpRequestIds
import OneSdk.MemorySearch
import OneSdk.KeptFirst
import OneSdk.TmParams
import OneSdk.Webshell
import OneSdk.JsonOwnership
import OneSdk.TmOwnership
import OneSdk.OtaFileName
import OneSdk.TmSendTopic
import OneSdk.RtReconnect
import OneSdk.Decoding
import OneSdk.ProbeRing
import OneSdk.HashTable
import OneSdk.KeyClasses
import OneSdk.HashTableRing
import OneSdk.HashTableOps
import OneSdk.HashTableMap
import OneSdk.HashTableWalk
import OneSdk.Lookup3
import OneSdk.OtaTaskMap
import OneSdk.ArrayList
import OneSdk.BlockHash
import OneSdk.Md5
import OneSdk.Sha256
import OneSdk.HmacSha256
import OneSdk.RoundCipher
import OneSdk.WordBytes
import OneSdk.AesTables
import OneSdk.AesCipher
import OneSdk.AesSchedule
import OneSdk.InboundTopics
import OneSdk.OtaRecords
