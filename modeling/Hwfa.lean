import Hwfa.Machines
import Hwfa.Decimals
import Hwfa.RelayEnvelope
import Hwfa.RelayHub
import Hwfa.RelayProcess
import Hwfa.RelayWiring
import Hwfa.RelayAddressing
import Hwfa.RelayClosing
import Hwfa.RelayAccounting
import Hwfa.Base64
import Hwfa.JsNumbers
import Hwfa.Sha256
import Hwfa.DiscoveryStore
import Hwfa.DiscoveryService
import Hwfa.DiscoveryPrekeys
import Hwfa.DiscoveryRecords
import Hwfa.DiscoveryDirectory
import Hwfa.DeviceKeyStore
import Hwfa.DeviceKeyStoreRestart
import Hwfa.ClientSafetyNumbers
import Hwfa.Json
import Hwfa.ClientHashing
import Hwfa.ConversationStore
import Hwfa.ConversationRouting
import Hwfa.Holdings
import Hwfa.RelayIdentity
import Hwfa.RelayOrder
import Hwfa.RelayFrames
import Hwfa.RelayReceipts
import Hwfa.RelayConfirmations
import Hwfa.ClientDelivery
import Hwfa.ClientLifecycle
import Hwfa.ClientCoherence
import Hwfa.ClientClosing
import Hwfa.ClientReconnecting
import Hwfa.ClientSockets
import Hwfa.ClientIdentities
import Hwfa.DiscoveryRevocation
import Hwfa.DiscoveryPublications
import Hwfa.ClientOnboarding
import Hwfa.RelayRestart
import Hwfa.DiscoveryHistory
import Hwfa.DiscoveryRestart
import Hwfa.DiscoveryCodes
import Hwfa.DiscoveryGroups
import Hwfa.ConversationInbound
import Hwfa.PhoneNormalization
import Hwfa.ContactsDiscovery
import Hwfa.ConversationPhone
import Hwfa.DiscoveryLinking
import Hwfa.ConversationReload
import Hwfa.ConversationHydration
import Hwfa.ConversationSignOut
import Hwfa.StatusStore
import Hwfa.ConversationHandling
import Hwfa.ConversationOutbound
import Hwfa.Regex
import Hwfa.ScamDetector
import Hwfa.ScamVerdicts
import Hwfa.ClientPipeline
import Hwfa.ClientOrdering
import Hwfa.ClientEstablishing
import Hwfa.ClientSubmission
import Hwfa.Slots
import Hwfa.CallManager
import Hwfa.CallMedia
import Hwfa.DiscoveryClient
import Hwfa.DiscoveryClientTokens
import Hwfa.Numbering
import Hwfa.NodeCryptoProvider
import Hwfa.DeviceKeyStorePrekeys
import Hwfa.SessionBundles
import Hwfa.ContactsCompleteness
import Hwfa.DiscoveryMetering
import Hwfa.Metering
import Hwfa.RelayBacklog
import Hwfa.Retention
import Hwfa.RelaySessions
import Hwfa.ConversationTicks
import Hwfa.ConversationList
import Hwfa.DiscoveryClientRecovery
import Hwfa.Doubles
import Hwfa.Lexers
import Hwfa.GoJson
import Hwfa.JsonInterchange
import Hwfa.AuthToken
import Hwfa.TypingIndicator
import Hwfa.SafetyNumber
import Hwfa.ScamDilution
import Hwfa.StatusIsolation
import Hwfa.FalsePositiveReports
import Hwfa.CallEffects
import Hwfa.CallScreen
import Hwfa.CallLedger
import Hwfa.CallCandidates
import Hwfa.ReadReceipts
import Hwfa.RelayNumbers
import Hwfa.RnMediaCipher
import Hwfa.JsonRoundTrip
import Hwfa.LinkCodes
import Hwfa.MediaAttachments
import Hwfa.Calendar
import Hwfa.PercentCoding
import Hwfa.Urls
import Hwfa.MediaSigner
import Hwfa.MediaServer
import Hwfa.JsonGrammar
import Hwfa.JsonReaders
import Hwfa.JsonWriters
import Hwfa.GoStructs
import Hwfa.RelayWire
import Hwfa.RelayFile
import Hwfa.DiscoveryFile
import Hwfa.Queries
import Hwfa.MediaService
import Hwfa.RelayHandshake
import Hwfa.JsonBodies
import Hwfa.GoStreams
import Hwfa.DiscoveryHandlers
import Hwfa.DiscoveryApi
import Hwfa.DiscoveryHttp
