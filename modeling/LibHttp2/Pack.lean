import LibHttp2.SliceBuffer
import LibHttp2.Frame

/-!
# Frame serialisation

The `pack_http2_frame_*` functions of `pack.cc`. Each writes the nine header bytes and then the
payload into a slice of exactly that size, so the slice is their concatenation.
`packHttp2FrameData` cuts the payload into frames of at most `maxFrameSize` bytes; with a limit of
zero its loop does not end.
-/

namespace LibHttp2

/-- The loop of `pack_http2_frame_data` on the bytes not yet read; `fuel` bounds its rounds. -/
def packDataLoop (maxFrameSize : ℕ) (endStreamFlag : UInt8) :
    ℕ → Http2FrameHdr → Bytes → SliceBuffer → Except Fault SliceBuffer
  | _, _, [], buffer => return buffer
  | 0, _, _ :: _, _ => throw .diverge
  | fuel + 1, hdr, remain, buffer =>
    let length := min remain.length maxFrameSize
    let isLast := length ≥ remain.length
    let flags := if isLast then hdr.flags ||| endStreamFlag else hdr.flags &&& ~~~flagEndStream
    let hdr := { hdr with length := length, flags := flags }
    packDataLoop maxFrameSize endStreamFlag fuel hdr (remain.drop length)
      (buffer.addSlice (http2FrameHeaderPack hdr ++ remain.take length))

def packHttp2FrameData (frame : Http2FrameData) (maxFrameSize : ℕ) : Except Fault SliceBuffer :=
  let flags := frame.hdr.flags &&& ~~~flagPadded
  let endStreamFlag := flags &&& flagEndStream
  let hdr := { frame.hdr with flags := flags }
  if frame.data.size = 0 then
    let hdr := { hdr with length := 0, flags := flags ||| endStreamFlag }
    return SliceBuffer.empty.addSlice (http2FrameHeaderPack hdr)
  else
    packDataLoop maxFrameSize endStreamFlag frame.data.size hdr frame.data.bytes .empty

/-- The stream dependency with its exclusive bit. -/
def packDependency (spec : Http2PrioritySpec) : Bytes :=
  putUint32InBeStream
    (if spec.exclusive then spec.dependStreamId % 2 ^ 31 + 2 ^ 31 else spec.dependStreamId)

def packHttp2FrameHeaders (frame : Http2FrameHeaders) : Bytes :=
  http2FrameHeaderPack frame.hdr ++
    (if hasFlag frame.hdr.flags flagPadded then [frame.padLen.toUInt8] else []) ++
    (if hasFlag frame.hdr.flags flagPriority then
      packDependency frame.pspec ++ [(frame.pspec.weight - 1).toUInt8] else []) ++
    frame.headerBlockFragment.bytes ++ List.replicate frame.padLen 0

def packHttp2FramePriority (frame : Http2FramePriority) : Bytes :=
  http2FrameHeaderPack frame.hdr ++ packDependency frame.pspec ++
    [if frame.pspec.weight ≠ 0 then (frame.pspec.weight - 1).toUInt8 else 0]

def packHttp2FrameRstStream (frame : Http2FrameRstStream) : Bytes :=
  http2FrameHeaderPack frame.hdr ++ putUint32InBeStream frame.errorCode

def packHttp2FrameSettings (frame : Http2FrameSettings) : Bytes :=
  http2FrameHeaderPack frame.hdr ++
    frame.settings.flatMap fun e => putUint16InBeStream e.id ++ putUint32InBeStream e.value

def packHttp2FramePushPromise (frame : Http2FramePushPromise) : Bytes :=
  http2FrameHeaderPack frame.hdr ++
    (if hasFlag frame.hdr.flags flagPadded then [frame.padLen.toUInt8] else []) ++
    putUint32InBeStream frame.promisedStreamId ++ frame.headerBlockFragment.bytes ++
    List.replicate frame.padLen 0

def packHttp2FramePing (frame : Http2FramePing) : Bytes :=
  http2FrameHeaderPack frame.hdr ++ frame.opaqueData

def packHttp2FrameGoaway (frame : Http2FrameGoaway) : Bytes :=
  http2FrameHeaderPack frame.hdr ++ putUint32InBeStream frame.lastStreamId ++
    putUint32InBeStream frame.errorCode ++ frame.debugData.bytes

def packHttp2FrameWindowUpdate (frame : Http2FrameWindowUpdate) : Bytes :=
  http2FrameHeaderPack frame.hdr ++ putUint32InBeStream frame.windowSizeInc

def packHttp2FrameContinuation (frame : Http2FrameContinuation) : Bytes :=
  http2FrameHeaderPack frame.hdr ++ frame.headerBlockFragment.bytes

end LibHttp2
