import Mobile.ProofSupport.Lines
import Mobile.ProofSupport.Memory
import Mobile.ProofSupport.Transition
import Mobile.ProofSupport.Image
import Mobile.ProofSupport.Mutex
import Mobile.ProofSupport.While
import Mobile.ProofSupport.Search
import Mobile.ProofSupport.Separation
import Mobile.ProofSupport.Chain
import Mobile.ProofSupport.Outcomes
import Mobile.ProofSupport.Consume
import Mobile.ProofSupport.Varint
import Mobile.ProofSupport.Decimal
import Mobile.Token.Scan
import Mobile.Token.Tokenizer
import Mobile.Token.InPlace
import Mobile.Token.Reference
import Mobile.Token.Proofs.Content
import Mobile.Token.Proofs.Fields
import Mobile.Token.Proofs.Port
import Mobile.Token.Proofs.Numerals
import Mobile.Token.Proofs.Rendering
import Mobile.Channel.ReadLine
import Mobile.Channel.Types
import Mobile.Channel.WriteLine
import Mobile.Channel.ProcessLine
import Mobile.Channel.SendCommand
import Mobile.Channel.ReaderOpen
import Mobile.Channel.ReaderLoop
import Mobile.Channel.LinePointers
import Mobile.Channel.Concurrent
import Mobile.Channel.Entries
import Mobile.Channel.Wire
import Mobile.Channel.Heap
import Mobile.Channel.HeapRuns
import Mobile.Channel.Proofs.WriteSpec
import Mobile.Channel.Proofs.Units
import Mobile.Channel.Proofs.Collection
import Mobile.Channel.Proofs.Log
import Mobile.Channel.Proofs.Expiry
import Mobile.Channel.Proofs.Window
import Mobile.Channel.Proofs.Reporting
import Mobile.Channel.Proofs.Closing
import Mobile.Channel.Proofs.Handover
import Mobile.Channel.Proofs.Locking
import Mobile.Channel.Proofs.Pending
import Mobile.Channel.Proofs.Closed
import Mobile.Channel.Proofs.Waiting
import Mobile.Channel.Proofs.Unanswered
import Mobile.Channel.Proofs.ReadLineSpec
import Mobile.Channel.Proofs.Reassembly
import Mobile.Channel.Proofs.Cursor
import Mobile.Channel.Proofs.Transport
import Mobile.Channel.Proofs.HeapSpecs
import Mobile.Channel.Proofs.HeapSections
import Mobile.Channel.Proofs.Ownership
import Mobile.Channel.Proofs.HeapRefinement
import Mobile.Channel.Proofs.CommandLines
import Mobile.Channel.Proofs.Attribution
import Mobile.Channel.Proofs.Descriptors
import Mobile.Command.Callbacks
import Mobile.Command.Operations
import Mobile.Command.Slots
import Mobile.Command.Manager
import Mobile.Command.Proofs.Effects
import Mobile.Command.Proofs.Dispatch
import Mobile.Command.Proofs.Agreement
import Mobile.Command.Proofs.Replies
import Mobile.Command.Proofs.Evaluation
import Mobile.Command.Proofs.ErrorCode
import Mobile.Command.Proofs.Radio
import Mobile.Command.Proofs.Apns
import Mobile.Command.Proofs.Missing
import Mobile.Command.Proofs.Release
import Mobile.Command.Proofs.Framing
import Mobile.Command.Proofs.SimState
import Mobile.Sms.Helpers
import Mobile.Sms.Unicode
import Mobile.Sms.Pdu
import Mobile.Sms.Layout
import Mobile.Sms.Accesses
import Mobile.Sms.Fragment
import Mobile.Sms.HelperLoops
import Mobile.Sms.SendMessage
import Mobile.Sms.ReadMessage
import Mobile.Sms.Queue
import Mobile.Sms.Proofs.Characters
import Mobile.Sms.Proofs.Fifo
import Mobile.Sms.Proofs.RoundTrip
import Mobile.Sms.Proofs.Scanning
import Mobile.Sms.Proofs.Splitting
import Mobile.Sms.Proofs.Septets
import Mobile.Sms.Proofs.Positions
import Mobile.Sms.Proofs.Conversion
import Mobile.Sms.Proofs.SemiOctets
import Mobile.Sms.Proofs.Encoding
import Mobile.Sms.Proofs.Outgoing
import Mobile.Sms.Proofs.PackedLength
import Mobile.Sms.Proofs.Decoding
import Mobile.Sms.Proofs.Bounds
import Mobile.Sms.Proofs.Header
import Mobile.Sms.Proofs.HexDigits
import Mobile.Device.Types
import Mobile.Device.Scanf
import Mobile.Device.Detect
import Mobile.Device.Network
import Mobile.Device.Init
import Mobile.Device.DialPPP
import Mobile.Device.Proofs.Detection
import Mobile.Device.Proofs.Initialization
import Mobile.Device.Proofs.Model
import Mobile.Device.Proofs.NetworkCode
import Mobile.Device.Proofs.SystemInfo
import Mobile.Device.Proofs.Dialling
import Mobile.Service.Messages
import Mobile.Service.Calls
import Mobile.Service.Proofs.Runtime
import Mobile.Service.Proofs.Merging
import Mobile.Service.Proofs.Accepting
import Mobile.Service.Proofs.Answers
