import SurgeMQ.Message.Types
import SurgeMQ.Message.Header
import SurgeMQ.Message.Provider
import SurgeMQ.Message.SubAck
import SurgeMQ.Message.PubRel
import SurgeMQ.Message.PingReq
import SurgeMQ.Message.UnSubAck
import SurgeMQ.Message.Codec
import SurgeMQ.Message.Publish
import SurgeMQ.Persistence.Bucket
import SurgeMQ.Persistence.Tx
import SurgeMQ.Persistence.Sequence
import SurgeMQ.Persistence.Sessions
import SurgeMQ.Persistence.Subscriptions
import SurgeMQ.Persistence.Messages
import SurgeMQ.Persistence.Store
import SurgeMQ.Persistence.Refinement
import SurgeMQ.Persistence.Shutdown
