import SAeroRP.Properties.AbsentAddresses
import SAeroRP.Properties.AdvertisedMotion
import SAeroRP.Properties.AgreedKey
import SAeroRP.Properties.BestNeighbor
import SAeroRP.Properties.Certificates
import SAeroRP.Properties.ControlSockets
import SAeroRP.Properties.DataPackets
import SAeroRP.Properties.DefaultSlots
import SAeroRP.Properties.DeferredPackets
import SAeroRP.Properties.Enrolments
import SAeroRP.Properties.FairShares
import SAeroRP.Properties.Frames
import SAeroRP.Properties.Freshness
import SAeroRP.Properties.Grants
import SAeroRP.Properties.GuardTime
import SAeroRP.Properties.Handshakes
import SAeroRP.Properties.HeaderCodecs
import SAeroRP.Properties.HeaderEquality
import SAeroRP.Properties.HeardDestinations
import SAeroRP.Properties.HeardNeighbors
import SAeroRP.Properties.KeyAgreement
import SAeroRP.Properties.KnownDestinations
import SAeroRP.Properties.LinkDelivery
import SAeroRP.Properties.LiveGateways
import SAeroRP.Properties.LoopFree
import SAeroRP.Properties.MacQueueHistory
import SAeroRP.Properties.MacQueueLimit
import SAeroRP.Properties.MalformedMessages
import SAeroRP.Properties.NeighborExpiry
import SAeroRP.Properties.NextHopPaths
import SAeroRP.Properties.OwnAddresses
import SAeroRP.Properties.PendingDestinations
import SAeroRP.Properties.QueueDrain
import SAeroRP.Properties.RaggedSlotFiles
import SAeroRP.Properties.RelativeMotion
import SAeroRP.Properties.InterceptTimes
import SAeroRP.Properties.Replies
import SAeroRP.Properties.RequestQueueHistory
import SAeroRP.Properties.RequestQueueLimit
import SAeroRP.Properties.RouteTotality
import SAeroRP.Properties.SerialNumbers
import SAeroRP.Properties.Signatures
import SAeroRP.Properties.SlotArguments
import SAeroRP.Properties.SlotFiles
import SAeroRP.Properties.SlotSequence
import SAeroRP.Properties.SlotTables
import SAeroRP.Properties.TableIntegrity
import SAeroRP.Properties.TimelyDelivery
import SAeroRP.Properties.TransmittablePackets
import SAeroRP.Tdma.Course
