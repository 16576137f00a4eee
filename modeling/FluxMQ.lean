import FluxMQ.Consumer.Reservation
import FluxMQ.Consumer.Exactness
import FluxMQ.Consumer.Seek
import FluxMQ.Queue.StreamProgress
import FluxMQ.Queue.Retention
import FluxMQ.Raft.LostUpdate
import FluxMQ.Raft.Determinism
import FluxMQ.Logstorage.Recreation
import FluxMQ.Logstorage.TornLog
import FluxMQ.Logstorage.Restart
import FluxMQ.Queue.GroupStoreRaft
import FluxMQ.Queue.DeadLetterSafety
import FluxMQ.Queue.PublishStored
import FluxMQ.Raft.CoordinatorService
import FluxMQ.Logstorage.GroupCommit
import FluxMQ.Mqtt.Disconnect
import FluxMQ.Mqtt.InboundQoS2
import FluxMQ.Logstorage.SegmentRecovery
import FluxMQ.Logstorage.Dedupe
import FluxMQ.Mqtt.PacketIDs
import FluxMQ.Cluster.Subscriptions
import FluxMQ.Queue.IndexedStores
import FluxMQ.Mqtt.IdentityIsolation
import FluxMQ.Amqp091.Fanout
import FluxMQ.Amqp1.Credit
import FluxMQ.Amqp1.Disposition
import FluxMQ.Amqp1.Identity
import FluxMQ.Broker.AuthEngine
import FluxMQ.Broker.LocalPrincipals
import FluxMQ.Broker.LocalPublish
import FluxMQ.Logstorage.PendingIndex
import FluxMQ.Broker.SubscribeGrants
