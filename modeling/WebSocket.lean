import WebSocket.Handler.Counter
import WebSocket.Handler.Echo
import WebSocket.Handler.Inspector
import WebSocket.Handler.Scripted
import WebSocket.Host
import WebSocket.Proofs.BigEndian
import WebSocket.Proofs.ClosePayload
import WebSocket.Proofs.Handshake.Arrival
import WebSocket.Proofs.Handshake.FieldMerge
import WebSocket.Proofs.Handshake.HeadLines
import WebSocket.Proofs.Handshake.LineReader
import WebSocket.Proofs.Handshake.RequestGrammar
import WebSocket.Proofs.Handshake.ResponseFields
import WebSocket.Proofs.Handshake.ResponseHead
import WebSocket.Proofs.Handshake.ResponseWriter
import WebSocket.Proofs.Handshake.Subprotocols
import WebSocket.Proofs.Handshake.Upgrade
import WebSocket.Proofs.Handshake.Values
import WebSocket.Proofs.Host.Answers
import WebSocket.Proofs.Interleaving
import WebSocket.Proofs.Lookup
import WebSocket.Proofs.Masking
import WebSocket.Proofs.Reassembly.Blocks
import WebSocket.Proofs.Reassembly.Bounds
import WebSocket.Proofs.Reassembly.Breach
import WebSocket.Proofs.Reassembly.Conformance
import WebSocket.Proofs.Reassembly.Counters
import WebSocket.Proofs.Reassembly.Fragments
import WebSocket.Proofs.Reassembly.Grammar
import WebSocket.Proofs.Reassembly.Interlude
import WebSocket.Proofs.Reassembly.Release
import WebSocket.Proofs.Reassembly.Reports
import WebSocket.Proofs.Reassembly.RoundTrip
import WebSocket.Proofs.Reassembly.Visits
import WebSocket.Proofs.Reassembly.WiderLimits
import WebSocket.Proofs.Routing
import WebSocket.Proofs.ServerFrames
import WebSocket.Proofs.Session.Admission
import WebSocket.Proofs.Session.Announcement
import WebSocket.Proofs.Session.Bundled
import WebSocket.Proofs.Session.ChosenFields
import WebSocket.Proofs.Session.Chronicle
import WebSocket.Proofs.Session.ClosingFlag
import WebSocket.Proofs.Session.Counting
import WebSocket.Proofs.Session.Course
import WebSocket.Proofs.Session.Cuts
import WebSocket.Proofs.Session.Echo
import WebSocket.Proofs.Session.Farewell
import WebSocket.Proofs.Session.FieldCalls
import WebSocket.Proofs.Session.Framing
import WebSocket.Proofs.Session.Inspection
import WebSocket.Proofs.Session.Journal
import WebSocket.Proofs.Session.LateFields
import WebSocket.Proofs.Session.Lifecycle
import WebSocket.Proofs.Session.Moments
import WebSocket.Proofs.Session.OpenSession
import WebSocket.Proofs.Session.Output
import WebSocket.Proofs.Session.PeerClose
import WebSocket.Proofs.Session.Replies
import WebSocket.Proofs.Session.SendResult
import WebSocket.Proofs.Session.SharedOutput
import WebSocket.Proofs.Session.Truthful
import WebSocket.Proofs.Session.Waiting
import WebSocket.Proofs.Session.Workers
import WebSocket.Proofs.Splitting
import WebSocket.Proofs.Teardown
import WebSocket.Proofs.Utf8
import WebSocket.Transcript
