import RserveClient.Foundation.Arrivals
import RserveClient.Foundation.CInt
import RserveClient.Foundation.CString
import RserveClient.Foundation.Framing
import RserveClient.Foundation.Interaction
import RserveClient.Foundation.Embedding
import RserveClient.Foundation.Ipv4
import RserveClient.Foundation.LittleEndian
import RserveClient.Foundation.Loop
import RserveClient.Foundation.Padding
import RserveClient.Foundation.Peek
import RserveClient.Foundation.RText
import RserveClient.Foundation.Transition
import RserveClient.Wire.Rsrv
import RserveClient.Wire.Sexp
import RserveClient.Client.Socket
import RserveClient.Client.Param
import RserveClient.Client.ExecStr
import RserveClient.Client.Predicates
import RserveClient.Client.Commands
import RserveClient.Client.DataFrame
import RserveClient.Client.VecReply
import RserveClient.Client.GetVec
import RserveClient.Client.GetScalar
import RserveClient.Client.NamedVec
import RserveClient.Client.SetVec
import RserveClient.Client.Shutdown
import RserveClient.Client.Connect
import RserveClient.Client.Calls
import RserveClient.Client.Replies
import RserveClient.Client.Sends
import RserveClient.Encoding.Sizes
import RserveClient.Encoding.Payload
import RserveClient.Encoding.NameParam
import RserveClient.Encoding.Slots
import RserveClient.Encoding.Strings
import RserveClient.Encoding.CanonicalReply
import RserveClient.Encoding.Logicals
import RserveClient.Encoding.CommandText
import RserveClient.Encoding.DataFrameText
import RserveClient.Encoding.NamedReply
import RserveClient.Encoding.Attributes
import RserveClient.Encoding.RoundTrip
import RserveClient.Session.Draining
import RserveClient.Session.Evaluations
import RserveClient.Session.Interleaving
import RserveClient.Session.Outbound
import RserveClient.Session.Alignment
import RserveClient.Session.Delivery
import RserveClient.Session.Segmentation
import RserveClient.Session.ScalarRefinement
import RserveClient.Session.Greeting
import RserveClient.Session.Descriptors
import RserveClient.Memory.OutputPointer
import RserveClient.Memory.OutputReads
import RserveClient.Memory.ReadLoop
import RserveClient.Memory.Cleanup
import RserveClient.Memory.ReplyLengths
import RserveClient.Memory.Capacities
import RserveClient.Memory.CommandBuffers
import RserveClient.Client.Api
import RserveClient.Client.Phases
import RserveClient.Foundation.Threads
import RserveClient.Foundation.Reassembly
import RserveClient.Session.Live
import RserveClient.Session.RServer
import RserveClient.Session.Sockets
import RserveClient.Session.WordServer
import RserveClient.Session.Direct
import RserveClient.Session.Workspace
import RserveClient.Samples.Chat
import RserveClient.Samples.UnitTest1
import RserveClient.Samples.TimeoutTest
import RserveClient.Session.Ledger
import RserveClient.Session.Lifecycle
import RserveClient.Session.Recut
