import LibHttp2.Hpack.Encode
import LibHttp2.Hpack.DynamicMetadata
import LibHttp2.Hpack.MurmurHash
import LibHttp2.SliceBuffer

/-!
# The HPACK compressor

`send_record.cc`: what the encoder remembers of the peer's dynamic table. The sizes of the entries
`tailRemoteIndex + 1 .. tailRemoteIndex + tableElems` are kept in a circular array, and a table of
64 slots, two for each name, maps headers to entry numbers. A slot may hold an evicted entry; it is
recognised by a number that is not above `tailRemoteIndex`.

A failed `assert` and an access outside the array are faults.
-/

namespace LibHttp2.Hpack

structure SendRecord where
  mdel : MdelemData
  index : ℕ
  deriving DecidableEq, Repr

structure Compressor where
  maxTableSize : ℕ
  maxTableElems : ℕ
  capTableElems : ℕ
  maxUsableSize : ℕ
  tailRemoteIndex : ℕ
  tableSize : ℕ
  tableElems : ℕ
  tableElemSize : List ℕ
  entries : List SendRecord
  deriving DecidableEq, Repr

/-- `HPACK_NUM_VALUES`. -/
def hpackNumValues : ℕ := 64

/-- `HPACK_INITIAL_TABLE_SIZE`. -/
def hpackInitialTableSize : ℕ := 4096

/-! ## The slots -/

/-- `HASH_FRAGMENT_2`. -/
def hashFragment2 (x : ℕ) : ℕ := x / 2 ^ 6 % hpackNumValues

/-- `HASH_FRAGMENT_3`. -/
def hashFragment3 (x : ℕ) : ℕ := x / 2 ^ 12 % hpackNumValues

/-- `hashtable[hash_index]`. -/
def slotAt (hashtable : List SendRecord) (hashIndex : ℕ) : SendRecord :=
  hashtable.getD hashIndex ⟨.empty, 0⟩

def tableEmptyAt (hashtable : List SendRecord) (hashIndex : ℕ) : Bool :=
  (slotAt hashtable hashIndex).mdel = .empty

def fullMatches (hashtable : List SendRecord) (element : MdelemData) (hashIndex : ℕ) : Bool :=
  element = (slotAt hashtable hashIndex).mdel

def updateIndex (hashtable : List SendRecord) (hashIndex hpackIndex : ℕ) : List SendRecord :=
  hashtable.set hashIndex { slotAt hashtable hashIndex with index := hpackIndex }

def setIndex (hashtable : List SendRecord) (hashIndex : ℕ) (element : MdelemData)
    (hpackIndex : ℕ) : List SendRecord :=
  hashtable.set hashIndex { mdel := element, index := hpackIndex }

/-- The result of `GetMatchingIndex`, with the index it writes. -/
inductive MatchResult
  | fullMatch (index : ℕ)
  | keyMatch (index : ℕ)
  | notMatch
  deriving DecidableEq, Repr

/-- `key_match_a` and `key_match_b`. -/
def keyMatch (hashtable : List SendRecord) (mdel : MdelemData) (hashIndex : ℕ) : Bool :=
  !tableEmptyAt hashtable hashIndex && (slotAt hashtable hashIndex).mdel.key = mdel.key

/-- `candidate_a` and `candidate_b`. -/
def candidate (hashtable : List SendRecord) (mdel : MdelemData) (hashIndex : ℕ) : ℕ :=
  if keyMatch hashtable mdel hashIndex then (slotAt hashtable hashIndex).index else 0

def getMatchingIndex (c : Compressor) (mdel : MdelemData) (keyHash : ℕ) : MatchResult :=
  let cuckooFirst := hashFragment2 keyHash
  let cuckooSecond := hashFragment3 keyHash
  if tableEmptyAt c.entries cuckooFirst && tableEmptyAt c.entries cuckooSecond then .notMatch
  else if fullMatches c.entries mdel cuckooFirst then
    .fullMatch (slotAt c.entries cuckooFirst).index
  else if fullMatches c.entries mdel cuckooSecond then
    .fullMatch (slotAt c.entries cuckooSecond).index
  else
    if !keyMatch c.entries mdel cuckooFirst && !keyMatch c.entries mdel cuckooSecond then .notMatch
    else
      let candidateA := candidate c.entries mdel cuckooFirst
      let candidateB := candidate c.entries mdel cuckooSecond
      let maxIdx := max candidateA candidateB
      let minIdx := min candidateA candidateB
      if minIdx > c.tailRemoteIndex then .keyMatch minIdx
      else if maxIdx > c.tailRemoteIndex then .keyMatch maxIdx
      else .keyMatch c.tailRemoteIndex

def replaceOlderIndex (hashtable : List SendRecord) (value : MdelemData)
    (hashIndexA hashIndexB newIndex : ℕ) : List SendRecord :=
  let id := if (slotAt hashtable hashIndexA).index < (slotAt hashtable hashIndexB).index
    then hashIndexA else hashIndexB
  setIndex hashtable id value newIndex

def updateAddOrEvict (hashtable : List SendRecord) (value : MdelemData)
    (valueHash newIndex : ℕ) : List SendRecord :=
  let cuckooFirst := hashFragment2 valueHash
  let cuckooSecond := hashFragment3 valueHash
  if fullMatches hashtable value cuckooFirst then updateIndex hashtable cuckooFirst newIndex
  else if tableEmptyAt hashtable cuckooFirst then setIndex hashtable cuckooFirst value newIndex
  else if fullMatches hashtable value cuckooSecond then
    updateIndex hashtable cuckooSecond newIndex
  else if tableEmptyAt hashtable cuckooSecond then setIndex hashtable cuckooSecond value newIndex
  else replaceOlderIndex hashtable value cuckooFirst cuckooSecond newIndex

/-! ## The window of entry sizes -/

/-- `table_elem_size[index % cap_table_elems]`. -/
def elemSizeAt (c : Compressor) (index : ℕ) : Except Fault ℕ :=
  match c.tableElemSize[index % c.capTableElems]? with
  | some size => .ok size
  | none => .error .badIndex

/-- `assert(c)`. -/
def assertThat (c : Prop) [Decidable c] : Except Fault Unit :=
  if c then .ok () else .error .assertion

def evictEntry (c : Compressor) : Except Fault Compressor := do
  let tail := u32 (c.tailRemoteIndex + 1)
  assertThat (tail > 0)
  let size ← elemSizeAt c tail
  assertThat (c.tableSize ≥ size)
  assertThat (c.tableElems > 0)
  return { c with
    tailRemoteIndex := tail
    tableSize := c.tableSize - size
    tableElems := c.tableElems - 1 }

/-- Evict while `more` asks for it. Each round takes an entry, so `tableElems + 1` rounds of fuel
are enough. -/
def evictWhile (more : Compressor → Bool) : ℕ → Compressor → Except Fault Compressor
  | 0, _ => .error .diverge
  | fuel + 1, c =>
    if more c then do
      let c ← evictEntry c
      evictWhile more fuel c
    else .ok c

/-- The number of the new entry, or 0 when it is too large for the table. -/
def prepareSpaceForNewElem (c : Compressor) (elemSize : ℕ) : Except Fault (ℕ × Compressor) := do
  let newIndex := u32 (c.tailRemoteIndex + c.tableElems + 1)
  assertThat (elemSize < 65536)
  if elemSize > c.maxTableSize then
    let c ← evictWhile (fun c => c.tableSize > 0) (c.tableElems + 1) c
    return (0, c)
  else
    let c ← evictWhile (fun c => c.tableSize + elemSize > c.maxTableSize) (c.tableElems + 1) c
    assertThat (c.tableElems < c.maxTableElems)
    let _ ← elemSizeAt c newIndex
    return (newIndex, { c with
      tableElemSize := c.tableElemSize.set (newIndex % c.capTableElems) (elemSize % 2 ^ 16)
      tableSize := c.tableSize + elemSize
      tableElems := c.tableElems + 1 })

def addElem (c : Compressor) (elem : MdelemData) (elemSize keyHash : ℕ) :
    Except Fault Compressor := do
  let (newIndex, c) ← prepareSpaceForNewElem c elemSize
  if newIndex ≠ 0 then
    return { c with entries := updateAddOrEvict c.entries elem keyHash newIndex }
  else return c

def dynidx (c : Compressor) (elemIndex : ℕ) : ℕ :=
  u32Sub (u32 (1 + hpackStaticMdelemStandardCount + c.tailRemoteIndex + c.tableElems)) elemIndex

/-! ## Encoding -/

def getBase64EncodedSize (rawLength : ℕ) : ℕ :=
  rawLength / 3 * 4 + [0, 2, 3].getD (rawLength % 3) 0

def grpcKeyIsBinaryHeader (buf : Bytes) : Bool :=
  if buf.length < 5 then false else buf.drop (buf.length - 4) = ascii "-bin"

def getSizeInHpackTable (elem : MdelemData) (useTrueBinaryMetadata : Bool) : ℕ :=
  let overheadAndKey := 32 + elem.key.length
  let valueLen := elem.value.length
  if grpcKeyIsBinaryHeader elem.key then
    overheadAndKey +
      (if useTrueBinaryMetadata then valueLen + 1 else getBase64EncodedSize valueLen)
  else overheadAndKey + valueLen

/-- A header that has no entry in the window: it is added to it if its name is a static one. -/
def encodeNewHeader (c : Compressor) (mdel : MdelemData) (decoderSpaceUsage keyHash : ℕ) :
    Except Fault (Bytes × Compressor) :=
  if checkKeyExists mdel.key then do
    let c ← addElem c mdel decoderSpaceUsage keyHash
    return (encodeWithIncrementalIndexing mdel, c)
  else return (encodeWithoutIndexing mdel, c)

def hpackEncodeHeader (seed : UInt32) (c : Compressor) (mdel : MdelemData)
    (useTrueBinaryMetadata : Bool) : Except Fault (Bytes × Compressor) :=
  let keyHash := mdelemKvHash seed mdel.key
  let decoderSpaceUsage := getSizeInHpackTable mdel useTrueBinaryMetadata
  match getMatchingIndex c mdel keyHash with
  | .notMatch => encodeNewHeader c mdel decoderSpaceUsage keyHash
  | .fullMatch index =>
    if index ≤ c.tailRemoteIndex then encodeNewHeader c mdel decoderSpaceUsage keyHash
    else .ok (encodeIndex (dynidx c index), c)
  | .keyMatch index =>
    if index ≤ c.tailRemoteIndex then encodeNewHeader c mdel decoderSpaceUsage keyHash
    else .ok (encodeWithoutIndexingKey mdel (dynidx c index), c)

def compressorEncodeHeaders (seed : UInt32) (c : Compressor) (metadata : List MdelemData)
    (output : SliceBuffer) (useTrueBinaryMetadata : Bool) :
    Except Fault (SliceBuffer × Compressor) :=
  match metadata with
  | [] => .ok (output, c)
  | md :: rest =>
    let index := fullMatchStaticMdelemIndex md
    if index ≠ 0 then
      compressorEncodeHeaders seed c rest (output.addSlice (encodeIndex index))
        useTrueBinaryMetadata
    else do
      let (s, c) ← hpackEncodeHeader seed c md useTrueBinaryMetadata
      compressorEncodeHeaders seed c rest (output.addSlice s) useTrueBinaryMetadata

/-! ## Set-up and resizing -/

def elemsForBytes (bytes : ℕ) : ℕ := u32 (bytes + 31) / 32

def compressorInit : Compressor :=
  let cap := elemsForBytes hpackInitialTableSize
  { maxTableSize := hpackInitialTableSize
    maxTableElems := cap
    capTableElems := cap
    maxUsableSize := hpackInitialTableSize
    tailRemoteIndex := 0
    tableSize := 0
    tableElems := 0
    tableElemSize := List.replicate cap 0
    entries := List.replicate hpackNumValues ⟨.empty, 0⟩ }

/-- The copy loop of `rebuild_elems`, `n` entries from the `i`-th on. -/
def copyElems (c : Compressor) (newCap : ℕ) : ℕ → ℕ → List ℕ → Except Fault (List ℕ)
  | 0, _, sizes => .ok sizes
  | n + 1, i, sizes => do
    let ofs := u32 (c.tailRemoteIndex + i + 1)
    let size ← elemSizeAt c ofs
    copyElems c newCap n (i + 1) (sizes.set (ofs % newCap) size)

def rebuildElems (c : Compressor) (newCap : ℕ) : Except Fault Compressor :=
  if c.tableElems > newCap then .ok c
  else do
    let sizes ← copyElems c newCap c.tableElems 0 (List.replicate newCap 0)
    return { c with capTableElems := newCap, tableElemSize := sizes }

def compressorSetMaxTableSize (c : Compressor) (maxTableSize : ℕ) : Except Fault Compressor :=
  let maxTableSize := min maxTableSize c.maxUsableSize
  if maxTableSize = c.maxTableSize then .ok c
  else do
    let c ← evictWhile (fun c => c.tableSize > 0 && c.tableSize > maxTableSize)
      (c.tableElems + 1) c
    let c := { c with maxTableSize := maxTableSize, maxTableElems := elemsForBytes maxTableSize }
    if c.maxTableElems > c.capTableElems then
      rebuildElems c (max c.maxTableElems (u32 (2 * c.capTableElems)))
    else if c.maxTableElems < c.capTableElems / 3 then
      let newCap := max c.maxTableElems 16
      if newCap ≠ c.capTableElems then rebuildElems c newCap else return c
    else return c

def compressorSetMaxUsableSize (c : Compressor) (maxTableSize : ℕ) : Except Fault Compressor :=
  compressorSetMaxTableSize { c with maxUsableSize := maxTableSize }
    (min c.maxTableSize maxTableSize)

end LibHttp2.Hpack
