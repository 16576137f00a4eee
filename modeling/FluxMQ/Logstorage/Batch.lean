import FluxMQ.Library.Bytes
import Mathlib.Data.List.AList

/-!
# The batch codec

`Batch` of `logstorage/batch.go` with `Encode` and `DecodeBatch`, byte for byte: a header of 44 bytes
and the records, which may be compressed.

* `Batch.encode`, `decodeBatch`: the two directions.
* `Batch.Fits`: the number of records and the length of their bytes fit their fields of the header,
  and no header value is nil.
* `Batch.roundTrips_iff`: a batch that `NewBatch` and `Append` have built comes back exactly if it
  fits.

The checksum is any function. The S2 and zstd libraries are any encoders with decoders that invert
them.
-/

namespace FluxMQ.Logstorage

open Bytes Parser List

/-- A byte string that is not nil. -/
abbrev ByteString := List UInt8

/-- The header map of a record, with the order in which a loop goes over it. A header value may be
nil. -/
abbrev HeaderMap := AList fun _ : ByteString => Option ByteString

/-- `Record`. Keys and values may be nil; an empty header map is nil. -/
structure Record where
  offsetDelta : UInt32
  timestampDelta : Int64
  key : Option ByteString
  value : Option ByteString
  headers : HeaderMap

/-- A record of the log, as it is appended and read. -/
structure Message where
  offset : Nat
  timestamp : Int64
  key : Option ByteString
  value : Option ByteString
  headers : HeaderMap

/-- `CompressionType`, of which 0, 1 and 2 are known. -/
abbrev CompressionType := UInt8

def compressionNone : CompressionType := 0
def compressionS2 : CompressionType := 1
def compressionZstd : CompressionType := 2

abbrev BatchFlags := UInt16

def batchFlagCompressed : BatchFlags := 1
def batchFlagHasTimestamp : BatchFlags := 2
def batchFlagHasKeys : BatchFlags := 4
def batchFlagHasHeaders : BatchFlags := 8

def isCompressed (flags : BatchFlags) : Bool := flags &&& batchFlagCompressed != 0

/-- `Batch`: records that are written together. -/
structure Batch where
  baseOffset : Nat
  baseTimestamp : Int64
  maxTimestamp : Int64 := 0
  flags : BatchFlags := batchFlagHasTimestamp
  compression : CompressionType := compressionNone
  records : List Record := []

/-- Why a batch cannot be encoded or decoded. -/
inductive BatchError where
  | emptyBatch
  | invalidBatch
  | invalidMagic
  | crcMismatch
  | unsupportedVersion
  | records
  | decompression
  deriving Repr, DecidableEq

/-- The libraries that the codec uses. -/
structure BatchLibraries where
  /-- CRC-32C. -/
  checksum : ByteString → UInt32
  s2Encode : ByteString → ByteString
  s2Decode : ByteString → Option ByteString
  zstdEncode : ByteString → ByteString
  zstdDecode : ByteString → Option ByteString
  s2Decode_s2Encode : ∀ data, s2Decode (s2Encode data) = some data
  zstdDecode_zstdEncode : ∀ data, zstdDecode (zstdEncode data) = some data

namespace BatchLibraries

variable (lib : BatchLibraries)

def compress (data : ByteString) (ct : CompressionType) : ByteString :=
  if ct = compressionS2 then lib.s2Encode data
  else if ct = compressionZstd then lib.zstdEncode data
  else data

def decompress (data : ByteString) (ct : CompressionType) : Option ByteString :=
  if ct = compressionS2 then lib.s2Decode data
  else if ct = compressionZstd then lib.zstdDecode data
  else some data

lemma decompress_compress (data : ByteString) (ct : CompressionType) :
    lib.decompress (lib.compress data ct) ct = some data := by
  unfold decompress compress
  split
  · exact lib.s2Decode_s2Encode data
  · split
    · exact lib.zstdDecode_zstdEncode data
    · rfl

end BatchLibraries

/-! ### Building a batch -/

namespace Batch

/-- `NewBatch`. -/
def new (baseOffset : Nat) (now : Int64) : Batch := { baseOffset, baseTimestamp := now }

/-- What `Append` is given, and the time it is given it. -/
structure Item where
  now : Int64
  value : Option ByteString
  key : Option ByteString
  headers : HeaderMap

def append (b : Batch) (item : Item) : Batch :=
  { b with
    flags :=
      let flags := if item.key.isSome then b.flags ||| batchFlagHasKeys else b.flags
      if 0 < item.headers.entries.length then flags ||| batchFlagHasHeaders else flags
    maxTimestamp := if b.maxTimestamp < item.now then item.now else b.maxTimestamp
    records := b.records ++ [{
      offsetDelta := UInt32.ofNat b.records.length
      timestampDelta := item.now - b.baseTimestamp
      key := item.key
      value := item.value
      headers := item.headers }] }

/-- A batch with a record for every item, which is then given its offset and its compression. -/
def build (baseOffset : Nat) (now : Int64) (compression : CompressionType) (items : List Item) : Batch :=
  { items.foldl append (new 0 now) with baseOffset, compression }

def nextOffset (b : Batch) : Nat := b.baseOffset + b.records.length

def toMessages (b : Batch) : List Message :=
  b.records.map fun r =>
    { offset := b.baseOffset + r.offsetDelta.toNat
      timestamp := b.baseTimestamp + r.timestampDelta
      key := r.key
      value := r.value
      headers := r.headers }

def getMessage (b : Batch) (offset : Nat) : Option Message :=
  if offset < b.baseOffset then none
  else b.records[offset - b.baseOffset]?.map fun r =>
    { offset
      timestamp := b.baseTimestamp + r.timestampDelta
      key := r.key
      value := r.value
      headers := r.headers }

end Batch

/-! ### Encoding -/

/-- A key or a value: its length, or -1 for nil, and its bytes. -/
def encodeNullable : Option ByteString → ByteString
  | none => putVarint (-1)
  | some data => putVarint data.length ++ data

/-- The bytes of a header value. -/
def headerBytes (value : Option ByteString) : ByteString := value.getD []

/-- One header. Here nil is not told from empty. -/
def encodeHeader (header : Sigma fun _ : ByteString => Option ByteString) : ByteString :=
  putUvarint header.1.length ++ (header.1 ++
    (putUvarint (headerBytes header.2).length ++ headerBytes header.2))

/-- One round of the loop of `encodeRecords`. -/
def encodeRecord (r : Record) : ByteString :=
  putUvarint r.offsetDelta.toNat ++ (putVarint r.timestampDelta.toInt ++
    (encodeNullable r.key ++ (encodeNullable r.value ++
      (putUvarint r.headers.entries.length ++ r.headers.entries.flatMap encodeHeader))))

def encodeRecords (records : List Record) : ByteString := records.flatMap encodeRecord

def segmentMagic : Nat := 0x464C5558

def batchVersion : Nat := 1

def batchHeaderSize : Nat := 44

namespace Batch

variable (lib : BatchLibraries) (b : Batch)

/-- The records as they are stored, and the flags to go with them. Compression is tried on more than
256 bytes and used if it helps. -/
def stored : BatchFlags × ByteString :=
  let recordsData := encodeRecords b.records
  if b.compression ≠ compressionNone ∧ 256 < recordsData.length then
    let compressedData := lib.compress recordsData b.compression
    if compressedData.length < recordsData.length then
      (b.flags ||| batchFlagCompressed, compressedData)
    else (b.flags &&& ~~~batchFlagCompressed, recordsData)
  else (b.flags, recordsData)

/-- Everything after the checksum. -/
def body : ByteString :=
  putUint 8 b.baseOffset ++ (putUint 4 (b.stored lib).2.length ++ (putUint 2 b.records.length ++
    (putUint 2 (b.stored lib).1.toNat ++ (putUint 1 b.compression.toNat ++ (putUint 1 batchVersion ++
      (putUint 2 0 ++ (putUint 8 b.baseTimestamp.toUInt64.toNat ++
        (putUint 8 b.maxTimestamp.toUInt64.toNat ++ (b.stored lib).2))))))))

def encode : Except BatchError ByteString :=
  if b.records = [] then .error .emptyBatch
  else .ok (putUint 4 segmentMagic ++ (putUint 4 (lib.checksum (b.body lib)).toNat ++ b.body lib))

end Batch

/-! ### Decoding -/

def readBytes : Parser UInt8 ByteString := getUvarint.andThen raw

/-- A key or a value. -/
def decodeNullable : Parser UInt8 (Option ByteString) :=
  getVarint.andThen fun length =>
    if 0 ≤ length then (raw length.toNat).andThen fun data => yield (some data) else yield none

/-- One header. -/
def decodeHeader : Parser UInt8 (ByteString × ByteString) :=
  readBytes.andThen fun key => readBytes.andThen fun value => yield (key, value)

/-- The header map of a record: of two values with one key the last one counts. -/
def headersOf (headers : List (ByteString × ByteString)) : HeaderMap :=
  headers.foldl (fun m header => m.insert header.1 (some header.2)) ∅

/-- One round of the loop of `decodeRecords`. -/
def decodeRecord : Parser UInt8 Record :=
  getUvarint.andThen fun offsetDelta => getVarint.andThen fun timestampDelta =>
  decodeNullable.andThen fun key => decodeNullable.andThen fun value =>
  getUvarint.andThen fun headerCount => (decodeHeader.times headerCount).andThen fun headers =>
  yield
    { offsetDelta := UInt32.ofNat offsetDelta
      timestampDelta := Int64.ofInt timestampDelta
      key, value
      headers := headersOf headers }

def decodeRecords (data : ByteString) (count : Nat) : Option (List Record) :=
  (decodeRecord.times count data).map (·.1)

/-- The fields of the header of a batch. -/
structure BatchHeader where
  magic : Nat
  storedCRC : Nat
  baseOffset : Nat
  batchLen : Nat
  count : Nat
  flags : Nat
  compression : Nat
  version : Nat
  baseTimestamp : Nat
  maxTimestamp : Nat
  deriving Repr, DecidableEq

/-- The header of a batch. -/
def decodeBatchHeader : Parser UInt8 BatchHeader :=
  (getUint 4).andThen fun magic => (getUint 4).andThen fun storedCRC =>
  (getUint 8).andThen fun baseOffset => (getUint 4).andThen fun batchLen =>
  (getUint 2).andThen fun count => (getUint 2).andThen fun flags =>
  (getUint 1).andThen fun compression => (getUint 1).andThen fun version =>
  (getUint 2).andThen fun _ => (getUint 8).andThen fun baseTimestamp =>
  (getUint 8).andThen fun maxTimestamp =>
  yield { magic, storedCRC, baseOffset, batchLen, count, flags, compression, version, baseTimestamp,
          maxTimestamp }

def decodeBatch (lib : BatchLibraries) (data : ByteString) : Except BatchError Batch :=
  match decodeBatchHeader data with
  | none => .error .invalidBatch
  | some (header, rest) =>
    if header.magic ≠ segmentMagic then .error .invalidMagic
    else if header.storedCRC ≠ (lib.checksum (data.drop 8)).toNat then .error .crcMismatch
    else if batchVersion < header.version then .error .unsupportedVersion
    else
      match raw header.batchLen rest with
      | none => .error .records
      | some (recordsData, _) =>
        let flags := UInt16.ofNat header.flags
        let compression := UInt8.ofNat header.compression
        match if isCompressed flags then lib.decompress recordsData compression
            else some recordsData with
        | none => .error .decompression
        | some recordsData =>
          match decodeRecords recordsData header.count with
          | none => .error .records
          | some records => .ok
            { baseOffset := header.baseOffset
              baseTimestamp := (UInt64.ofNat header.baseTimestamp).toInt64
              maxTimestamp := (UInt64.ofNat header.maxTimestamp).toInt64
              flags, compression, records }

/-! ### Records come back -/

/-- The bytes of a record are fewer than 2^63, as those of every slice are. -/
def Record.Addressable (r : Record) : Prop := (encodeRecord r).length < 2 ^ 63

/-- The record that `decodeRecords` makes of the bytes of a record. -/
def Record.decoded (r : Record) : Record :=
  { r with headers := headersOf (r.headers.entries.map fun h => (h.1, headerBytes h.2)) }

lemma reads_readBytes {data : ByteString} (h : data.length < 2 ^ 63) :
    Reads readBytes (putUvarint data.length ++ data) data :=
  (reads_getUvarint (by omega)).andThen (reads_raw data)

lemma reads_decodeNullable {value : Option ByteString}
    (h : (encodeNullable value).length < 2 ^ 63) :
    Reads decodeNullable (encodeNullable value) value := by
  cases value with
  | none =>
    have hread : Reads decodeNullable (putVarint (-1) ++ []) none := by
      refine (reads_getVarint (by decide) (by decide)).andThen ?_
      exact reads_yield
    rwa [append_nil] at hread
  | some data =>
    have hlength : data.length < 2 ^ 63 := by
      simp only [encodeNullable, length_append] at h
      omega
    have hdata : Reads (if (0 : Int) ≤ (data.length : Int) then
        (raw (data.length : Int).toNat).andThen fun data => yield (some data) else yield none)
        (data ++ []) (some data) := by
      exact (reads_raw data).andThen reads_yield
    rw [append_nil] at hdata
    exact (reads_getVarint (by omega) (by omega)).andThen hdata

lemma reads_decodeHeader {header : Sigma fun _ : ByteString => Option ByteString}
    (h : (encodeHeader header).length < 2 ^ 63) :
    Reads decodeHeader (encodeHeader header) (header.1, headerBytes header.2) := by
  simp only [encodeHeader, length_append] at h
  have hvalue : Reads (readBytes.andThen fun value => yield (header.1, value))
      (putUvarint (headerBytes header.2).length ++ headerBytes header.2 ++ [])
      (header.1, headerBytes header.2) := (reads_readBytes (by omega)).andThen reads_yield
  rw [append_nil] at hvalue
  have hkey : Reads readBytes (putUvarint header.1.length ++ header.1) header.1 :=
    reads_readBytes (by omega)
  have hheader : Reads decodeHeader (putUvarint header.1.length ++ header.1 ++ _) _ :=
    hkey.andThen hvalue
  rwa [append_assoc] at hheader

lemma length_le_flatMap {α : Type} {f : α → ByteString} {as : List α} {a : α} (h : a ∈ as) :
    (f a).length ≤ (as.flatMap f).length := by
  obtain ⟨front, back, rfl⟩ := append_of_mem h
  simp only [flatMap_append, flatMap_cons, length_append]
  omega

lemma length_le_length_flatMap_encodeHeader
    (headers : List (Sigma fun _ : ByteString => Option ByteString)) :
    headers.length ≤ (headers.flatMap encodeHeader).length := by
  induction headers with
  | nil => exact Nat.le_refl 0
  | cons header headers ih =>
    have hpos : 0 < (putUvarint header.1.length).length := by
      unfold putUvarint putUvarintUpTo
      split <;> simp
    simp only [flatMap_cons, length_append, length_cons, encodeHeader]
    omega

/-- A record is read back. -/
lemma reads_decodeRecord {r : Record} (h : r.Addressable) :
    Reads decodeRecord (encodeRecord r) r.decoded := by
  have h : (encodeRecord r).length < 2 ^ 63 := h
  have hcount := length_le_length_flatMap_encodeHeader r.headers.entries
  simp only [encodeRecord, length_append] at h
  have hdelta : r.offsetDelta.toNat < 2 ^ 64 := Nat.lt_trans r.offsetDelta.toNat_lt (by decide)
  have hheaders : Reads (decodeHeader.times r.headers.entries.length)
      (r.headers.entries.flatMap encodeHeader)
      (r.headers.entries.map fun h => (h.1, headerBytes h.2)) := by
    refine reads_times _ fun header hmem => reads_decodeHeader ?_
    have := length_le_flatMap (f := encodeHeader) hmem
    omega
  have hlast := hheaders.andThen (f := fun headers => yield
    ({ offsetDelta := UInt32.ofNat r.offsetDelta.toNat
       timestampDelta := Int64.ofInt r.timestampDelta.toInt
       key := r.key
       value := r.value
       headers := headersOf headers } : Record)) reads_yield
  have hdecoded : ({ offsetDelta := UInt32.ofNat r.offsetDelta.toNat
                     timestampDelta := Int64.ofInt r.timestampDelta.toInt
                     key := r.key
                     value := r.value
                     headers := headersOf (r.headers.entries.map fun h => (h.1, headerBytes h.2)) }
      : Record) = r.decoded := by
    simp [Record.decoded]
  rw [append_nil, hdecoded] at hlast
  exact (reads_getUvarint hdelta).andThen
    ((reads_getVarint r.timestampDelta.le_toInt r.timestampDelta.toInt_lt).andThen
      ((reads_decodeNullable (by omega)).andThen
        ((reads_decodeNullable (by omega)).andThen ((reads_getUvarint (by omega)).andThen hlast))))

lemma reads_decodeRecords {records : List Record} (h : ∀ r ∈ records, r.Addressable) :
    Reads (decodeRecord.times records.length) (encodeRecords records) (records.map Record.decoded) :=
  reads_times records fun r hr => reads_decodeRecord (h r hr)

lemma stable_readBytes : Stable readBytes := stable_getUvarint.andThen stable_raw

lemma stable_decodeNullable : Stable decodeNullable := by
  refine stable_getVarint.andThen fun length => ?_
  split
  · exact (stable_raw _).andThen fun _ => stable_yield _
  · exact stable_yield _

lemma stable_decodeRecord : Stable decodeRecord :=
  stable_getUvarint.andThen fun _ => stable_getVarint.andThen fun _ =>
  stable_decodeNullable.andThen fun _ => stable_decodeNullable.andThen fun _ =>
  stable_getUvarint.andThen fun _ => (Stable.times (stable_readBytes.andThen fun _ =>
    stable_readBytes.andThen fun _ => stable_yield _) _).andThen fun _ => stable_yield _

/-! ### Header maps -/

/-- Two header maps hold the same values. -/
def SameHeaders (h h' : HeaderMap) : Prop := ∀ k, h.lookup k = h'.lookup k

lemma lookup_foldl_insert (headers : List (Sigma fun _ : ByteString => Option ByteString))
    (hnodup : headers.NodupKeys) (m : HeaderMap) (k : ByteString) :
    ((headers.map fun h => (h.1, headerBytes h.2)).foldl
        (fun m header => m.insert header.1 (some header.2)) m).lookup k =
      match headers.dlookup k with
      | some value => some (some (headerBytes value))
      | none => m.lookup k := by
  induction headers generalizing m with
  | nil => rfl
  | cons header headers ih =>
    obtain ⟨hfresh, hrest⟩ := nodupKeys_cons.mp hnodup
    rw [map_cons, foldl_cons, ih hrest]
    by_cases hk : k = header.1
    · subst hk
      rw [dlookup_eq_none.mpr hfresh, dlookup_cons_eq]
      exact AList.lookup_insert _
    rw [dlookup_cons_ne _ _ hk]
    split
    · rfl
    · exact AList.lookup_insert_ne hk

/-- What comes back for a header map: the same keys, and an empty value in place of nil. -/
lemma lookup_decoded (r : Record) (k : ByteString) :
    r.decoded.headers.lookup k = (r.headers.lookup k).map fun value => some (headerBytes value) := by
  have hlookup := lookup_foldl_insert r.headers.entries r.headers.nodupKeys ∅ k
  unfold Record.decoded headersOf
  rw [hlookup]
  unfold AList.lookup
  cases r.headers.entries.dlookup k <;> rfl

/-- No header value is nil. -/
def HeaderMap.NonNil (h : HeaderMap) : Prop := ∀ k, h.lookup k ≠ some none

lemma sameHeaders_decoded_iff (r : Record) :
    SameHeaders r.headers r.decoded.headers ↔ HeaderMap.NonNil r.headers := by
  refine forall_congr' fun k => ?_
  rw [lookup_decoded]
  cases r.headers.lookup k with
  | none => simp
  | some value => cases value <;> simp [headerBytes]

/-- Two records are the same, as far as header maps have no order. -/
structure Record.Same (r r' : Record) : Prop where
  offsetDelta : r.offsetDelta = r'.offsetDelta
  timestampDelta : r.timestampDelta = r'.timestampDelta
  key : r.key = r'.key
  value : r.value = r'.value
  headers : SameHeaders r.headers r'.headers

lemma same_decoded_iff (r : Record) : r.Same r.decoded ↔ HeaderMap.NonNil r.headers := by
  rw [← sameHeaders_decoded_iff]
  exact ⟨fun h => h.headers, fun h => ⟨rfl, rfl, rfl, rfl, h⟩⟩

/-! ### The header of a batch -/

namespace Batch

variable {lib : BatchLibraries} {b : Batch}

/-- The header that `Encode` writes. What does not fit a field is cut off. -/
def header (lib : BatchLibraries) (b : Batch) : BatchHeader :=
  { magic := segmentMagic
    storedCRC := (lib.checksum (b.body lib)).toNat
    baseOffset := b.baseOffset % 2 ^ 64
    batchLen := (b.stored lib).2.length % 2 ^ 32
    count := b.records.length % 2 ^ 16
    flags := (b.stored lib).1.toNat
    compression := b.compression.toNat
    version := batchVersion
    baseTimestamp := b.baseTimestamp.toUInt64.toNat
    maxTimestamp := b.maxTimestamp.toUInt64.toNat }

/-- The bytes of a batch. -/
def bytes (lib : BatchLibraries) (b : Batch) : ByteString :=
  putUint 4 segmentMagic ++ (putUint 4 (lib.checksum (b.body lib)).toNat ++ b.body lib)

lemma encode_eq_ok (h : b.records ≠ []) : b.encode lib = .ok (b.bytes lib) := if_neg h

lemma drop_eight_bytes : (b.bytes lib).drop 8 = b.body lib := by
  unfold bytes
  rw [← append_assoc]
  exact drop_left' (by simp)

/-- The header is read off the front of a batch. -/
lemma decodeBatchHeader_bytes (lib : BatchLibraries) (b : Batch) (more : ByteString) :
    decodeBatchHeader (b.bytes lib ++ more) = some (b.header lib, (b.stored lib).2 ++ more) := by
  have hfield {width n : Nat} (h : n < 256 ^ width) : Reads (getUint width) (putUint width n) n := by
    have hread := reads_getUint width n
    rwa [Nat.mod_eq_of_lt h] at hread
  have hheader : Reads decodeBatchHeader (putUint 4 segmentMagic ++
      (putUint 4 (lib.checksum (b.body lib)).toNat ++ (putUint 8 b.baseOffset ++
        (putUint 4 (b.stored lib).2.length ++ (putUint 2 b.records.length ++
          (putUint 2 (b.stored lib).1.toNat ++ (putUint 1 b.compression.toNat ++
            (putUint 1 batchVersion ++ (putUint 2 0 ++ (putUint 8 b.baseTimestamp.toUInt64.toNat ++
                (putUint 8 b.maxTimestamp.toUInt64.toNat ++ [])))))))))))
      (b.header lib) :=
    (hfield (by decide)).andThen ((hfield (UInt32.toNat_lt _)).andThen
      ((reads_getUint 8 _).andThen ((reads_getUint 4 _).andThen ((reads_getUint 2 _).andThen
        ((hfield (UInt16.toNat_lt _)).andThen ((hfield (UInt8.toNat_lt _)).andThen
          ((hfield (by decide)).andThen ((reads_getUint 2 0).andThen
            ((hfield (UInt64.toNat_lt _)).andThen
              ((hfield (UInt64.toNat_lt _)).andThen reads_yield))))))))))
  have hread := hheader ((b.stored lib).2 ++ more)
  simpa only [bytes, body, append_assoc, append_nil, nil_append] using hread

lemma stable_decodeBatchHeader : Stable decodeBatchHeader :=
  (stable_getUint 4).andThen fun _ => (stable_getUint 4).andThen fun _ =>
  (stable_getUint 8).andThen fun _ => (stable_getUint 4).andThen fun _ =>
  (stable_getUint 2).andThen fun _ => (stable_getUint 2).andThen fun _ =>
  (stable_getUint 1).andThen fun _ => (stable_getUint 1).andThen fun _ =>
  (stable_getUint 2).andThen fun _ => (stable_getUint 8).andThen fun _ =>
  (stable_getUint 8).andThen fun _ => stable_yield _

lemma fixed_decodeBatchHeader : Fixed batchHeaderSize decodeBatchHeader :=
  (fixed_getUint 4).andThen fun _ => (fixed_getUint 4).andThen fun _ =>
  (fixed_getUint 8).andThen fun _ => (fixed_getUint 4).andThen fun _ =>
  (fixed_getUint 2).andThen fun _ => (fixed_getUint 2).andThen fun _ =>
  (fixed_getUint 1).andThen fun _ => (fixed_getUint 1).andThen fun _ =>
  (fixed_getUint 2).andThen fun _ => (fixed_getUint 8).andThen fun _ =>
  (fixed_getUint 8).andThen fun _ => fixed_yield _

/-- What `DecodeBatch` makes of the stored records. -/
def unstored (lib : BatchLibraries) (b : Batch) (data : ByteString) : Option ByteString :=
  if isCompressed (b.stored lib).1 then lib.decompress data b.compression else some data

/-- `DecodeBatch` of the bytes of a batch, whatever its size. -/
lemma decodeBatch_bytes (lib : BatchLibraries) (b : Batch) :
    decodeBatch lib (b.bytes lib) =
      match b.unstored lib ((b.stored lib).2.take ((b.stored lib).2.length % 2 ^ 32)) with
      | none => .error .decompression
      | some data =>
        match decodeRecords data (b.records.length % 2 ^ 16) with
        | none => .error .records
        | some records => .ok
          { b with baseOffset := b.baseOffset % 2 ^ 64, flags := (b.stored lib).1, records } := by
  have hheader := decodeBatchHeader_bytes lib b []
  have hraw : raw ((b.stored lib).2.length % 2 ^ 32) (b.stored lib).2 =
      some ((b.stored lib).2.take ((b.stored lib).2.length % 2 ^ 32),
        (b.stored lib).2.drop ((b.stored lib).2.length % 2 ^ 32)) :=
    if_neg (Nat.not_lt.mpr (Nat.mod_le _ _))
  rw [append_nil, append_nil] at hheader
  simp only [decodeBatch, hheader, drop_eight_bytes, header, ne_eq, not_true_eq_false, if_false,
    Nat.lt_irrefl, hraw, UInt16.ofNat_toNat, UInt8.ofNat_toNat, UInt64.ofNat_toNat,
    Int64.toInt64_toUInt64, unstored]

lemma isCompressed_or (flags : BatchFlags) : isCompressed (flags ||| batchFlagCompressed) = true := by
  refine bne_iff_ne.mpr fun h => ?_
  have hbit := congrArg (fun f : UInt16 => f.toNat.testBit 0) h
  simp [batchFlagCompressed] at hbit

lemma isCompressed_andNot (flags : BatchFlags) :
    isCompressed (flags &&& ~~~batchFlagCompressed) = false := by
  have hnone : (~~~batchFlagCompressed &&& batchFlagCompressed : UInt16) = 0 := by decide
  simp [isCompressed, UInt16.and_assoc, hnone]

/-- Compression is undone. -/
lemma unstored_stored (hflags : isCompressed b.flags = false) :
    b.unstored lib (b.stored lib).2 = some (encodeRecords b.records) := by
  unfold unstored stored
  dsimp only
  split
  · split
    · rw [if_pos (isCompressed_or _), lib.decompress_compress]
    · rw [isCompressed_andNot, if_neg (by decide)]
  · rw [hflags, if_neg (by decide)]

lemma stored_of_uncompressed (h : b.compression = compressionNone) :
    b.stored lib = (b.flags, encodeRecords b.records) :=
  if_neg fun hcompressed => hcompressed.1 h

/-- The fields of the header hold the number of the records and the length of their bytes. -/
structure InHeader (lib : BatchLibraries) (b : Batch) : Prop where
  count : b.records.length < 2 ^ 16
  length : (b.stored lib).2.length < 2 ^ 32

/-- A batch as the types of Go allow it: a slice is shorter than 2^63 bytes, and an offset is below
2^64. -/
structure Addressable (b : Batch) : Prop where
  bytes : (encodeRecords b.records).length < 2 ^ 63
  offsets : b.baseOffset + b.records.length ≤ 2 ^ 64

lemma Addressable.record (h : b.Addressable) : ∀ r ∈ b.records, r.Addressable := by
  intro r hr
  exact Nat.lt_of_le_of_lt (length_le_flatMap hr) h.bytes

/-- A batch that fits its header is decoded, with empty header values in place of nil. -/
lemma decodeBatch_bytes_of_inHeader (hflags : isCompressed b.flags = false) (hne : b.records ≠ [])
    (h : b.InHeader lib) (haddr : b.Addressable) : decodeBatch lib (b.bytes lib) =
      .ok { b with flags := (b.stored lib).1, records := b.records.map Record.decoded } := by
  have hrecords : decodeRecords (encodeRecords b.records) b.records.length =
      some (b.records.map Record.decoded) := by
    have hread := reads_decodeRecords haddr.record []
    rw [append_nil] at hread
    rw [decodeRecords, hread]
    rfl
  have hbase : b.baseOffset < 2 ^ 64 := by
    have hpos := length_pos_iff.mpr hne
    have := haddr.offsets
    omega
  rw [decodeBatch_bytes, Nat.mod_eq_of_lt h.length, Nat.mod_eq_of_lt h.count, Nat.mod_eq_of_lt hbase,
    take_length, unstored_stored hflags]
  dsimp only
  rw [hrecords]

/-! ### Built batches -/

/-- The record that `Append` makes of the item at an index. -/
def recordOf (now : Int64) (i : Nat) (item : Item) : Record :=
  { offsetDelta := UInt32.ofNat i
    timestampDelta := item.now - now
    key := item.key
    value := item.value
    headers := item.headers }

lemma foldl_append (items : List Item) (b : Batch) :
    (items.foldl append b).records =
        b.records ++ (items.mapIdx fun i => recordOf b.baseTimestamp (b.records.length + i)) ∧
      (items.foldl append b).baseTimestamp = b.baseTimestamp := by
  induction items generalizing b with
  | nil => simp
  | cons item items ih =>
    obtain ⟨hrecords, htime⟩ := ih (b.append item)
    refine ⟨?_, htime⟩
    have hone : (b.append item).records =
        b.records ++ [recordOf b.baseTimestamp b.records.length item] := rfl
    rw [foldl_cons, hrecords, hone, mapIdx_cons, append_assoc, singleton_append]
    simp [append, Nat.add_assoc, Nat.add_comm 1]

lemma isCompressed_append (b : Batch) (item : Item) :
    isCompressed (b.append item).flags = isCompressed b.flags := by
  have hor (flags other : BatchFlags) (h : other &&& batchFlagCompressed = 0) :
      isCompressed (flags ||| other) = isCompressed flags := by
    have hdistrib : (flags ||| other) &&& batchFlagCompressed = flags &&& batchFlagCompressed := by
      rw [← UInt16.toNat_inj] at h ⊢
      rw [UInt16.toNat_and] at h
      rw [UInt16.toNat_and, UInt16.toNat_or, Nat.and_or_distrib_right, h, UInt16.toNat_and]
      simp
    simp [isCompressed, hdistrib]
  have hkeys (flags : BatchFlags) := hor flags batchFlagHasKeys (by decide)
  have hheaders (flags : BatchFlags) := hor flags batchFlagHasHeaders (by decide)
  simp only [append]
  split <;> split <;> simp only [hkeys, hheaders]

lemma isCompressed_foldl_append (items : List Item) (b : Batch) :
    isCompressed (items.foldl append b).flags = isCompressed b.flags := by
  induction items generalizing b with
  | nil => rfl
  | cons item items ih => rw [foldl_cons, ih, isCompressed_append]

variable {baseOffset : Nat} {now : Int64} {compression : CompressionType} {items : List Item}

lemma records_build :
    (build baseOffset now compression items).records = items.mapIdx (recordOf now) := by
  have h := (foldl_append items (new 0 now)).1
  simpa [build, new] using h

lemma isCompressed_build : isCompressed (build baseOffset now compression items).flags = false := by
  have hnew : isCompressed batchFlagHasTimestamp = false := by decide
  exact (isCompressed_foldl_append items (new 0 now)).trans hnew

lemma isCompressed_stored_build {lib : BatchLibraries} :
    isCompressed ((build baseOffset now compressionNone items).stored lib).1 = false := by
  have hflags : isCompressed (build baseOffset now compressionNone items).flags = false :=
    isCompressed_build
  exact hflags

lemma baseTimestamp_build : (build baseOffset now compression items).baseTimestamp = now :=
  (foldl_append items (new 0 now)).2

/-- The message that an item is at an offset. -/
def Item.message (item : Item) (offset : Nat) : Message :=
  { offset, timestamp := item.now, key := item.key, value := item.value, headers := item.headers }

end Batch

/-- Two messages are the same, as far as header maps have no order. -/
structure Message.Same (m m' : Message) : Prop where
  offset : m.offset = m'.offset
  timestamp : m.timestamp = m'.timestamp
  key : m.key = m'.key
  value : m.value = m'.value
  headers : SameHeaders m.headers m'.headers

namespace Batch

variable {lib : BatchLibraries} {baseOffset : Nat} {now : Int64} {compression : CompressionType}
  {items : List Item}

/-- A batch for these items is encoded, decoded, and gives the items back. -/
structure GivesBack (b : Batch) (items : List Item) (b' : Batch) : Prop where
  baseOffset : b'.baseOffset = b.baseOffset
  baseTimestamp : b'.baseTimestamp = b.baseTimestamp
  maxTimestamp : b'.maxTimestamp = b.maxTimestamp
  records : List.Forall₂ Record.Same b.records b'.records
  toMessages : List.Forall₂ Message.Same
    (items.mapIdx fun i item => item.message (b.baseOffset + i)) b'.toMessages
  getMessage : ∀ i item, items[i]? = some item → ∃ msg, b'.getMessage (b.baseOffset + i) = some msg ∧
    (item.message (b.baseOffset + i)).Same msg

/-- The batch comes back from its bytes. -/
def RoundTrips (lib : BatchLibraries) (b : Batch) (items : List Item) : Prop :=
  ∃ data b', b.encode lib = .ok data ∧ decodeBatch lib data = .ok b' ∧ b.GivesBack items b'

/-- The batch fits its header, and no header value is nil. -/
structure Fits (lib : BatchLibraries) (b : Batch) : Prop extends b.InHeader lib where
  nonNil : ∀ r ∈ b.records, HeaderMap.NonNil r.headers

lemma message_same {item : Item} {i : Nat} {r : Record} (h : (recordOf now i item).Same r)
    (hi : i < 2 ^ 16) (base : Nat) :
    (item.message (base + i)).Same
      { offset := base + r.offsetDelta.toNat
        timestamp := now + r.timestampDelta
        key := r.key
        value := r.value
        headers := r.headers } where
  offset := by
    rw [← h.offsetDelta]
    simp only [Item.message, recordOf, UInt32.toNat_ofNat']
    omega
  timestamp := by
    rw [← h.timestampDelta]
    exact (Int64.add_comm .. ▸ Int64.sub_add_cancel ..).symm
  __ := h

/-- A decoded batch with the same records gives the items back. -/
lemma givesBack {b' : Batch} (hcount : items.length < 2 ^ 16) (hbase : b'.baseOffset = baseOffset)
    (htime : b'.baseTimestamp = now)
    (hmax : b'.maxTimestamp = (build baseOffset now compression items).maxTimestamp)
    (hrecords : List.Forall₂ Record.Same (items.mapIdx (recordOf now)) b'.records) :
    (build baseOffset now compression items).GivesBack items b' := by
  have hlength : items.length = b'.records.length := by simpa using hrecords.length_eq
  have hrecord {i : Nat} {item : Item} (hi : items[i]? = some item) :
      ∃ r, b'.records[i]? = some r ∧ (recordOf now i item).Same r ∧ i < 2 ^ 16 := by
    have hlt : i < items.length := (List.getElem?_eq_some_iff.mp hi).1
    have hr : b'.records[i]? = some (b'.records.get ⟨i, hlength ▸ hlt⟩) :=
      List.getElem?_eq_getElem _
    refine ⟨_, hr, ?_, Nat.lt_trans hlt hcount⟩
    have hsame := hrecords.get (by simpa using hlt) (hlength ▸ hlt)
    simpa [(List.getElem?_eq_some_iff.mp hi).2] using hsame
  refine ⟨hbase, htime.trans baseTimestamp_build.symm, hmax, records_build.symm ▸ hrecords, ?_, ?_⟩
  · refine List.forall₂_iff_get.mpr ⟨by simpa [toMessages] using hlength, fun i hi hi' => ?_⟩
    have hlt : i < items.length := by simpa using hi
    obtain ⟨r, hr, hsame, hsmall⟩ := hrecord (List.getElem?_eq_getElem hlt)
    obtain ⟨hlt', hr⟩ := List.getElem?_eq_some_iff.mp hr
    have hmessage := message_same hsame hsmall baseOffset
    simpa [toMessages, hr, hbase, htime, build] using hmessage
  intro i item hi
  obtain ⟨r, hr, hsame, hsmall⟩ := hrecord hi
  have hmessage := message_same hsame hsmall baseOffset
  have hoffset : baseOffset + r.offsetDelta.toNat = baseOffset + i := hmessage.offset.symm
  rw [hoffset] at hmessage
  refine ⟨_, ?_, hmessage⟩
  simp [getMessage, build, hbase, hr, htime]

lemma length_records_of_decodeBatch {b b' : Batch}
    (h : decodeBatch lib (b.bytes lib) = .ok b') : b'.records.length = b.records.length % 2 ^ 16 := by
  rw [decodeBatch_bytes] at h
  split at h
  · exact nomatch h
  split at h
  · exact nomatch h
  rename_i hdecode
  obtain rfl := Except.ok.inj h
  obtain ⟨⟨records, rest⟩, hread, rfl⟩ := Option.map_eq_some_iff.mp hdecode
  exact length_of_times hread

/-- Of records that are longer than the header can say, too little is read to decode them. -/
lemma decodeBatch_ne_ok_of_length {b b' : Batch} (haddr : b.Addressable)
    (hflags : isCompressed b.flags = false) (hplain : isCompressed (b.stored lib).1 = false)
    (hcount : b.records.length < 2 ^ 16) (hlength : 2 ^ 32 ≤ (b.stored lib).2.length) :
    decodeBatch lib (b.bytes lib) ≠ .ok b' := by
  have hstored : (b.stored lib).2 = encodeRecords b.records := by
    have hunstored : b.unstored lib (b.stored lib).2 = some (encodeRecords b.records) :=
      unstored_stored hflags
    simpa [unstored, hplain] using hunstored
  have hshort : decodeRecords ((encodeRecords b.records).take ((encodeRecords b.records).length % 2 ^ 32))
      b.records.length = none := by
    rw [hstored] at hlength
    rw [decodeRecords, take_eq_none (Stable.times stable_decodeRecord _)
      (reads_decodeRecords haddr.record)
      (Nat.lt_of_lt_of_le (Nat.mod_lt _ (by decide)) hlength)]
    rfl
  rw [decodeBatch_bytes, Nat.mod_eq_of_lt hcount, hstored]
  simp only [unstored, hplain, Bool.false_eq_true, if_false, hshort]
  exact nofun

/-- Of a multiple of 65536 records nothing is decoded. -/
lemma exists_decodeBatch_nil {b : Batch} (hplain : isCompressed (b.stored lib).1 = false)
    (hcount : b.records.length % 2 ^ 16 = 0) :
    ∃ b', decodeBatch lib (b.bytes lib) = .ok b' ∧ b'.records = [] := by
  rw [decodeBatch_bytes, hcount]
  simp only [unstored, hplain, Bool.false_eq_true, if_false]
  exact ⟨_, rfl, rfl⟩

lemma forall₂_same_decoded_iff (records : List Record) :
    List.Forall₂ Record.Same records (records.map Record.decoded) ↔
      ∀ r ∈ records, HeaderMap.NonNil r.headers := by
  rw [forall₂_map_right_iff, forall₂_same]
  exact forall₂_congr fun r _ => same_decoded_iff r

lemma records_build_ne_nil (hne : items ≠ []) :
    (build baseOffset now compression items).records ≠ [] := by
  rw [records_build]
  simpa using hne

section

variable (hne : items ≠ []) (haddr : (build baseOffset now compression items).Addressable)
include hne haddr

lemma roundTrips_of_fits (hfits : (build baseOffset now compression items).Fits lib) :
    (build baseOffset now compression items).RoundTrips lib items := by
  refine ⟨_, _, encode_eq_ok (records_build_ne_nil hne), decodeBatch_bytes_of_inHeader
    isCompressed_build (records_build_ne_nil hne) hfits.toInHeader haddr, ?_⟩
  have hcount : items.length < 2 ^ 16 := by simpa [records_build] using hfits.count
  have htime : (build baseOffset now compression items).baseTimestamp = now := baseTimestamp_build
  refine givesBack hcount rfl htime rfl ?_
  rw [← records_build]
  exact (forall₂_same_decoded_iff _).mpr hfits.nonNil

lemma fits_of_roundTrips
    (hknown : isCompressed ((build baseOffset now compression items).stored lib).1 = false ∨
      ((build baseOffset now compression items).stored lib).2.length < 2 ^ 32)
    (hround : (build baseOffset now compression items).RoundTrips lib items) :
    (build baseOffset now compression items).Fits lib := by
  have hsome : (build baseOffset now compression items).records ≠ [] := records_build_ne_nil hne
  obtain ⟨data, b', hencode, hdecode, hback⟩ := hround
  obtain rfl := Except.ok.inj ((encode_eq_ok hsome).symm.trans hencode)
  have hcount : (build baseOffset now compression items).records.length < 2 ^ 16 := by
    have hsame := hback.records.length_eq
    rw [length_records_of_decodeBatch hdecode] at hsame
    rw [hsame]
    exact Nat.mod_lt _ (by decide)
  have hlength : ((build baseOffset now compression items).stored lib).2.length < 2 ^ 32 := by
    refine hknown.elim (fun hplain => Nat.lt_of_not_le fun hlong => ?_) id
    exact decodeBatch_ne_ok_of_length haddr isCompressed_build hplain hcount hlong hdecode
  have hdecoded := decodeBatch_bytes_of_inHeader isCompressed_build hsome ⟨hcount, hlength⟩ haddr
  obtain rfl := Except.ok.inj (hdecode.symm.trans hdecoded)
  exact ⟨⟨hcount, hlength⟩, (forall₂_same_decoded_iff _).mp hback.records⟩

end

/-- A batch that `NewBatch` and `Append` have built comes back if it fits, and otherwise does not. Of
compressed records that are longer than the header can say, it is not known what the library makes of
the part that is read. -/
theorem roundTrips_iff (lib : BatchLibraries) (baseOffset : Nat) (now : Int64)
    (compression : CompressionType) (items : List Item) (hne : items ≠ [])
    (haddr : (build baseOffset now compression items).Addressable) :
    let b := build baseOffset now compression items
    (b.Fits lib → b.RoundTrips lib items) ∧
      (isCompressed (b.stored lib).1 = false ∨ (b.stored lib).2.length < 2 ^ 32 →
        b.RoundTrips lib items → b.Fits lib) :=
  ⟨roundTrips_of_fits hne haddr, fits_of_roundTrips hne haddr⟩

/-- Libraries that do nothing. -/
def plainLibraries : BatchLibraries where
  checksum _ := 0
  s2Encode := id
  s2Decode := some
  zstdEncode := id
  zstdDecode := some
  s2Decode_s2Encode _ := rfl
  zstdDecode_zstdEncode _ := rfl

/-- A message with an empty key, no value and one header. -/
def sampleItem (header : Option ByteString) : Item :=
  { now := 1000, value := none, key := some [], headers := AList.insert [104] header ∅ }

lemma nonNil_sampleItem_iff (header : Option ByteString) :
    (∀ r ∈ (build baseOffset now compression [sampleItem header]).records,
      HeaderMap.NonNil r.headers) ↔ header ≠ none := by
  have hlookup (k : ByteString) :
      (sampleItem header).headers.lookup k = if k = [104] then some header else none := by
    split
    · rename_i hk
      rw [hk]
      exact AList.lookup_insert _
    · rename_i hk
      exact AList.lookup_insert_ne hk
  constructor
  · intro h
    have hne := h _ mem_cons_self [104]
    simpa [recordOf, hlookup] using hne
  intro hheader r hr k
  obtain rfl : r = recordOf now 0 (sampleItem header) := mem_singleton.mp hr
  simp only [recordOf, hlookup]
  split <;> simp [hheader]

theorem roundTrips_sample :
    (build 7 990 compressionS2 [sampleItem (some [1])]).RoundTrips plainLibraries
      [sampleItem (some [1])] :=
  (roundTrips_iff plainLibraries 7 990 compressionS2 [sampleItem (some [1])] (by simp)
    ⟨by decide +kernel, by decide +kernel⟩).1
    ⟨⟨by decide +kernel, by decide +kernel⟩, (nonNil_sampleItem_iff _).mpr (by simp)⟩

/-- Of a batch with 65536 records nothing comes back, and of a header value nil an empty one does. -/
theorem records_lost :
    let items := List.replicate (2 ^ 16) (sampleItem (some [1]))
    (∃ data b', (build 0 0 compressionNone items).encode plainLibraries = .ok data ∧
        decodeBatch plainLibraries data = .ok b' ∧ b'.records = []) ∧
      ¬ (build 0 0 compressionNone items).RoundTrips plainLibraries items ∧
      ¬ (build 0 0 compressionNone [sampleItem none]).RoundTrips plainLibraries [sampleItem none] := by
  intro items
  have hcount : (build 0 0 compressionNone items).records.length = 2 ^ 16 := by
    rw [records_build, length_mapIdx, length_replicate]
  have hsome : (build 0 0 compressionNone items).records ≠ [] := ne_nil_of_length_pos (by omega)
  refine ⟨?_, ?_, fun hround => ?_⟩
  · obtain ⟨b', hdecode, hnone⟩ := exists_decodeBatch_nil
      (isCompressed_stored_build : isCompressed ((build 0 0 compressionNone items).stored
        plainLibraries).1 = false) (by rw [hcount, Nat.mod_self])
    exact ⟨_, b', encode_eq_ok hsome, hdecode, hnone⟩
  · rintro ⟨data, b', hencode, hdecode, hback⟩
    obtain rfl := Except.ok.inj ((encode_eq_ok hsome).symm.trans hencode)
    have hlength := hback.records.length_eq
    rw [length_records_of_decodeBatch hdecode, hcount] at hlength
    exact absurd hlength (by decide)
  · have hplain : isCompressed ((build 0 0 compressionNone [sampleItem none]).stored
        plainLibraries).1 = false := isCompressed_stored_build
    have hfits := fits_of_roundTrips (by simp) ⟨by decide +kernel, by decide +kernel⟩
      (.inl hplain) hround
    exact (nonNil_sampleItem_iff none).mp hfits.nonNil rfl

end Batch

end FluxMQ.Logstorage
