import OriRuntime.EventActs
import OriRuntime.SafeDefaultExclusion
import OriRuntime.TripCrash
import OriRuntime.TripLatch
import OriRuntime.SigningTimes
import OriRuntime.ExportPaging
import OriRuntime.DeferredWrites
import OriRuntime.DeliveryAgreement
import OriRuntime.ExporterOrder
import OriRuntime.ExporterAgreement
import OriRuntime.AlertsSent
import OriRuntime.BindingRevisions
import OriRuntime.EvidenceTeardown
import OriRuntime.HookWrites
import OriRuntime.AdapterConnects
import OriRuntime.InboundStranded
import OriRuntime.MqttLive
import OriRuntime.MeasurementRestarts
import OriRuntime.ConfigResolved
import OriRuntime.Deduplicator
import OriRuntime.TelemetryOnce
import OriRuntime.ReplyClassification
import OriRuntime.SafetyActivation
import OriRuntime.CooldownCharge
import OriRuntime.TierCTrail
import OriRuntime.CourierEpisodes
import OriRuntime.ChainTampering
import OriRuntime.PolicyVersions
import OriRuntime.SkillReload
import OriRuntime.OutboundOrder
import OriRuntime.ProfileDecode
import OriRuntime.HostileMessages
import OriRuntime.ReceiptExact
import OriRuntime.FirmwareSequences
import OriRuntime.FirmwareIntervals
import OriRuntime.GatewaySigning
import OriRuntime.SafetyMutations
import OriRuntime.WebhookNonces
import OriRuntime.MeasurementEpisodes
import OriRuntime.AlertAccounts
import OriRuntime.HistoryRanges
import OriRuntime.HistoryFrontier
import OriRuntime.ProofCommand
import OriRuntime.ReplayHeaps
import OriRuntime.InverterRegisters
import OriRuntime.IngressBound
