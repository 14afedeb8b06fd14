import GenWqe.Lib.Bits
import GenWqe.Lib.BitReader
import GenWqe.Lib.DeflateFormat
import GenWqe.Lib.BoundedQueue
import GenWqe.Lib.ByteMem
import GenWqe.Zedc.Codes
import GenWqe.Zedc.Fifo
import GenWqe.Zedc.FifoQueue
import GenWqe.Lib.Runs
import GenWqe.Lib.BlockBits
import GenWqe.Lib.EmptyBlocks
import GenWqe.Lib.Ring
import GenWqe.Lib.Account
import GenWqe.Lib.Lockstep
import GenWqe.Lib.Ledger
import GenWqe.Lib.Loops
import GenWqe.Lib.Cursor
import GenWqe.Lib.Crc
import GenWqe.Lib.CrcTable
import GenWqe.Lib.Sweep
import GenWqe.Lib.Words
import GenWqe.Lib.Nibbles
import GenWqe.Deflate.Stream
import GenWqe.Deflate.Output
import GenWqe.Deflate.Compress
import GenWqe.Deflate.Emission
import GenWqe.Deflate.Ending
import GenWqe.Deflate.Decodes
import GenWqe.Deflate.Failure
import GenWqe.Deflate.Flush
import GenWqe.Deflate.Accounts
import GenWqe.Hardware.Stream
import GenWqe.Hardware.Deflate
import GenWqe.Hardware.FlushComplete
import GenWqe.Hardware.StreamEnd
import GenWqe.Hardware.Inflate
import GenWqe.Hardware.InflateRuns
import GenWqe.Hardware.Bookkeeping
import GenWqe.Hardware.InflateEnds
import GenWqe.Hardware.EndSearch
import GenWqe.Session.Inflate
import GenWqe.Session.Block
import GenWqe.Session.Gate
import GenWqe.Session.Deflate
import GenWqe.Session.AllOrNothing
import GenWqe.Session.Dictionary
import GenWqe.Session.InflateDelivery
import GenWqe.Session.SkipInflate
import GenWqe.Session.Overlay
import GenWqe.Session.SkipDeflate
import GenWqe.Session.Tandem
import GenWqe.Session.DeflateHw
import GenWqe.Session.DeflateDecoding
import GenWqe.Session.Twins
import GenWqe.Session.Reset
import GenWqe.Session.Layout
import GenWqe.Session.TreeBounds
import GenWqe.Session.Registered
import GenWqe.Session.Copy
import GenWqe.Wrapper.Dispatch
import GenWqe.Wrapper.Inflate
import GenWqe.Wrapper.Live
import GenWqe.Wrapper.Deflate
import GenWqe.Wrapper.Bound
import GenWqe.Wrapper.Failure
import GenWqe.Wrapper.Format
import GenWqe.Wrapper.Survive
import GenWqe.Wrapper.Params
import GenWqe.Hardware.Buffering
import GenWqe.Hardware.DeflateErrors
import GenWqe.Inflate.Stream
import GenWqe.Inflate.Header
import GenWqe.Inflate.Trailer
import GenWqe.Inflate.SaveArea
import GenWqe.Inflate.Scratch
import GenWqe.Inflate.Update
import GenWqe.Inflate.Decompress
import GenWqe.Inflate.Accounts
import GenWqe.Inflate.Progress
import GenWqe.Inflate.Lengths
import GenWqe.Inflate.Calls
import GenWqe.Inflate.Behind
import GenWqe.Inflate.Verdict
import GenWqe.Inflate.Honest
import GenWqe.Inflate.Conservation
import GenWqe.Inflate.Layout
import GenWqe.Inflate.TreeWrites
import GenWqe.Inflate.Position
import GenWqe.Formats.HeaderBytes
import GenWqe.Formats.HeaderFields
import GenWqe.Formats.HeaderTrip
import GenWqe.Formats.Grammar
import GenWqe.Formats.HeaderScan
import GenWqe.Formats.HeaderRuns
import GenWqe.Formats.HeaderSplits
import GenWqe.Formats.HeaderStores
import GenWqe.Formats.Registered
import GenWqe.Formats.TrailerTrip
import GenWqe.Formats.StreamTrip
import GenWqe.Capi.Ddcb
import GenWqe.Capi.System
import GenWqe.Capi.Queue
import GenWqe.Capi.Results
import GenWqe.Capi.Numbers
import GenWqe.Capi.Chain
import GenWqe.Capi.Open
import GenWqe.Capi.Clients
import GenWqe.Capi.Modes
import GenWqe.Capi.Handles
import GenWqe.Card.DdcbCrc
import GenWqe.Card.Library
import GenWqe.Card.AtsFlags
import GenWqe.Card.Sound
import GenWqe.Card.Steps
import GenWqe.Card.RoundRobin
import GenWqe.Card.States
import GenWqe.Card.Inotify
import GenWqe.Card.Lifetime
import GenWqe.Card.Closing
import GenWqe.Card.Tables
import GenWqe.Vpd.Crc32
import GenWqe.Vpd.Cksum
import GenWqe.Lib.Records
import GenWqe.Vpd.Csv2Vpd
import GenWqe.Vpd.Convert
import GenWqe.Vpd.Lines
import GenWqe.Vpd.Files
import GenWqe.Vpd.RoundTrip
import GenWqe.Vpd.Bounds
import GenWqe.Vpd.Images
import GenWqe.Tools.Gunzip
import GenWqe.Accel.NeedDict
import GenWqe.Session.InflateErrors
import GenWqe.Inflate.Decodes
import GenWqe.Session.InflateDecoding
import GenWqe.Formats.BadHeaders
import GenWqe.Session.BadHeaders
import GenWqe.Session.ApiTrip
import GenWqe.Hardware.Resources
import GenWqe.Hardware.Ownership
import GenWqe.Hardware.OwnershipRuns
