import Marko.InteractionProgram
import Marko.InteractionMachine
import Marko.DatagramCalls
import Marko.MarkoSocket
import Marko.MarkoRequestReply
import Marko.MarkoOnceGate
import Marko.MarkoPubSub
import Marko.MarkoRegistration
import Marko.MarkoOwnAddress
import Marko.PymarkoUDPSocket
import Marko.PymarkoRequest
import Marko.ForeignDatagrams
import Marko.DatagramNetwork
import Marko.RequestReplySystem
import Marko.RequestReplySteps
import Marko.CallPipeline
import Marko.RequestReplyTokens
import Marko.RequestReplyPairing
import Marko.RequestReplyClients
import Marko.PublishDelivery
import Marko.AppendErase
import Marko.PymarkoPublisher
import Marko.PymarkoSubscriptions
import Marko.PymarkoLoops
import Marko.PymarkoObjects
import Marko.PymarkoSharedLists
import Marko.PymarkoTransport
import Marko.DescriptorCalls
import Marko.MarkoDescriptor
import Marko.MarkoTimeout
import Marko.MarkoPolling
import Marko.MarkoReceive
import Marko.MarkoSendFailure
import Marko.PymarkoPublishFailure
import Marko.DescriptorTable
import Marko.MarkoOwnership
import Marko.MutatedIteration
import Marko.PymarkoConcurrentPublish
import Marko.PymarkoDelivery
import Marko.PymarkoExchange
import Marko.PymarkoExchangeSteps
import Marko.PymarkoExchangeReplies
import Marko.PymarkoExchangeReturn
import Marko.InteractionLoop
import Marko.PymarkoBeacon
import Marko.DatagramAlike
import Marko.MarkoTransports
import Marko.MarkoUnixAddress
import Marko.MarkoSetBounds
import Marko.MarkoInfo
import Marko.DatagramTraffic
import Marko.DatagramFanOut
import Marko.MeshStations
import Marko.MeshDelivery
import Marko.MeshAgreement
import Marko.RequestReplyReturn
import Marko.DatagramReach
import Marko.RequestReplyFixed
import Marko.ServiceParties
import Marko.CallScatter
import Marko.RequestReplyAtMostOnce
import Marko.HostAddress
import Marko.MeshFields
import Marko.DatagramMemory
import Marko.SubscriptionLog
import Marko.SubscriptionSystem
import Marko.SubscriptionLedger
