import LibHttp2.Lib.Script
import LibHttp2.Parser
import LibHttp2.ParserBounds
import LibHttp2.Pack
import LibHttp2.Hpack.Huffman
import LibHttp2.Hpack.DynamicMetadata
import LibHttp2.Hpack.SizeChanges
import LibHttp2.Hpack.CompressorTable
import LibHttp2.Hpack.Assertions
import LibHttp2.Hpack.TableSize
import LibHttp2.Hpack.Recoding
import LibHttp2.Transport
import LibHttp2.Terminal
import LibHttp2.HeadersFrame
import LibHttp2.Codec
import LibHttp2.Invariants
import LibHttp2.HeaderBlocks
import LibHttp2.DecoderTable
import LibHttp2.Flushes
import LibHttp2.FailedSends
import LibHttp2.LostData
import LibHttp2.Refusals
import LibHttp2.Pushes
import LibHttp2.Contiguity
import LibHttp2.Promises
import LibHttp2.Drains
import LibHttp2.GoawayBound
import LibHttp2.FlowControl
import LibHttp2.StreamMap
import LibHttp2.Openings
import LibHttp2.NewStreams
import LibHttp2.StreamLimit
import LibHttp2.SendWindow
import LibHttp2.AutomaticFlow
import LibHttp2.ReceiveCredit
import LibHttp2.ByteOrder
import LibHttp2.DataDelivery
import LibHttp2.StrayFlags
import LibHttp2.LateFrames
import LibHttp2.DataBuffers
import LibHttp2.ByteQueue
import LibHttp2.PrefaceRuns
import LibHttp2.Hpack.Integers
import LibHttp2.Hpack.Bounds
import LibHttp2.Hpack.Reference
import LibHttp2.DecodedBlocks
import LibHttp2.Chunks
import LibHttp2.Fragments
import LibHttp2.Acknowledgements
import LibHttp2.HeaderSync
import LibHttp2.SettingsSync
