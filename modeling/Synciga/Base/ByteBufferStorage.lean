import Synciga.Base.ByteBuffer
import Synciga.Internal.RingMemory
import Synciga.Internal.Runs

/-!
# The storage of a `talk_base::ByteBuffer`

A buffer (`talk/base/bytebuffer.cc`) keeps its bytes in a block of memory, in which reading moves the start and
writing the end. Where there is no room, the bytes are moved to the beginning of the block, or of a larger one.
Numbers go through variables in the order of the host; of 24 bits, three bytes of a variable of four are used.

## Main definitions

* `ByteBuffer.Storage` — the block and its positions
* `ByteBuffer.Traffic.Holds` — it holds the part of a stream from a position on

## Main results

* `ByteBuffer.Traffic.fifo_run` — what is read is what was written
-/

namespace Synciga.ByteBuffer

open BigEndian RingMemory

/-! ### Numbers in memory -/

/-- The order of the bytes of a number in the memory of the host. -/
inductive Host
  | littleEndian
  | bigEndian
  deriving DecidableEq, Repr

/-- The enumeration `ByteOrder`. -/
inductive ByteOrder
  | network
  | host
  deriving DecidableEq, Repr

namespace Host

/-- The bytes of a variable of `n` bytes. -/
def layout (host : Host) (n val : ℕ) : List UInt8 :=
  match host with
  | littleEndian => (toBytes n val).reverse
  | bigEndian => toBytes n val

/-- The number in a variable with these bytes. -/
def number (host : Host) (bytes : List UInt8) : ℕ :=
  match host with
  | littleEndian => ofBytes bytes.reverse
  | bigEndian => ofBytes bytes

/-- `HostToNetwork16` and so on: the number whose bytes are in network order. -/
def hostToNetwork (host : Host) (n val : ℕ) : ℕ := host.number (toBytes n val)

/-- `NetworkToHost16` and so on. -/
def networkToHost (host : Host) (n val : ℕ) : ℕ := ofBytes (host.layout n val)

variable (host : Host) {n val : ℕ} {bytes : List UInt8}

@[simp] theorem length_layout (n val : ℕ) : (host.layout n val).length = n := by
  cases host with
  | littleEndian => exact (List.length_reverse ..).trans (length_toBytes n val)
  | bigEndian => exact length_toBytes n val

theorem layout_number (hlen : bytes.length = n) : host.layout n (host.number bytes) = bytes := by
  subst hlen
  cases host with
  | littleEndian =>
    have hbytes := toBytes_ofBytes bytes.reverse
    rw [List.length_reverse] at hbytes
    rw [layout, number, hbytes, List.reverse_reverse]
  | bigEndian => exact toBytes_ofBytes bytes

theorem number_layout (hval : val < 256 ^ n) : host.number (host.layout n val) = val := by
  cases host with
  | littleEndian => rw [layout, number, List.reverse_reverse, ofBytes_toBytes hval]
  | bigEndian => exact ofBytes_toBytes hval

theorem number_of_length_one (host' : Host) (hlen : bytes.length = 1) :
    host.number bytes = host'.number bytes := by
  obtain ⟨byte, rfl⟩ := List.length_eq_one_iff.mp hlen
  cases host <;> cases host' <;> rfl

theorem layout_hostToNetwork (n val : ℕ) : host.layout n (host.hostToNetwork n val) = toBytes n val :=
  host.layout_number (length_toBytes n val)

theorem networkToHost_number (hlen : bytes.length = n) :
    host.networkToHost n (host.number bytes) = ofBytes bytes := by
  rw [networkToHost, host.layout_number hlen]

end Host

/-! ### The buffer -/

/-- `ByteBuffer`. -/
structure Storage where
  bytes : ℕ → UInt8
  size : ℕ
  start : ℕ
  end_ : ℕ
  version : ℕ
  byteOrder : ByteOrder

namespace Storage

/-- `Construct`, with a new block of memory. -/
def construct (block : ℕ → UInt8) (bytes : Option (List UInt8)) (len : ℕ) (byteOrder : ByteOrder) : Storage :=
  match bytes with
  | some bytes => ⟨memcpy block 0 bytes, len, 0, len, 0, byteOrder⟩
  | none => ⟨block, len, 0, 0, 0, byteOrder⟩

/-- `ByteBuffer::Length`. -/
def length (b : Storage) : ℕ := b.end_ - b.start

/-- `ByteBuffer::Capacity`. -/
def capacity (b : Storage) : ℕ := b.size - b.start

section Operations

variable (host : Host) (block : ℕ → UInt8)

/-- `Resize`. The block is there if a larger one is needed. -/
def resize (size : ℕ) (b : Storage) : Storage :=
  let len := min (b.end_ - b.start) size
  if size ≤ b.size then
    -- Don't reallocate, just move data backwards.
    { b with
      bytes := memcpy b.bytes 0 (readMem b.bytes b.start len)
      start := 0, end_ := len, version := b.version + 1 }
  else
    -- Reallocate a larger buffer.
    { b with
      bytes := memcpy block 0 (readMem b.bytes b.start len)
      size := max size (3 * b.size / 2)
      start := 0, end_ := len, version := b.version + 1 }

/-- The first part of `ReserveWriteBuffer`: there is room for so many bytes behind the end. -/
def reserve (len : ℕ) (b : Storage) : Storage :=
  if b.length + len > b.capacity then b.resize block (b.length + len) else b

/-- `WriteBytes`, and `WriteString`. -/
def writeBytes (val : List UInt8) (b : Storage) : Storage :=
  let b := b.reserve block val.length
  { b with bytes := memcpy b.bytes b.end_ val, end_ := b.end_ + val.length }

/-- The number that is written for a number of `n` bytes. -/
def converted (n val : ℕ) (b : Storage) : ℕ :=
  if b.byteOrder = .network then host.hostToNetwork n val else val

/-- `WriteUInt8`. -/
def writeUInt8 (val : UInt8) (b : Storage) : Storage := b.writeBytes block [val]

/-- `WriteUInt16`. -/
def writeUInt16 (val : UInt16) (b : Storage) : Storage :=
  b.writeBytes block (host.layout 2 (b.converted host 2 val.toNat))

/-- Which of the four bytes of a variable the number of 24 bits begins with. -/
def begin24 (b : Storage) : ℕ := if b.byteOrder = .network ∨ host = .bigEndian then 1 else 0

/-- `WriteUInt24`. -/
def writeUInt24 (val : UInt32) (b : Storage) : Storage :=
  b.writeBytes block (((host.layout 4 (b.converted host 4 val.toNat)).drop (b.begin24 host)).take 3)

/-- `WriteUInt32`. -/
def writeUInt32 (val : UInt32) (b : Storage) : Storage :=
  b.writeBytes block (host.layout 4 (b.converted host 4 val.toNat))

/-- `WriteUInt64`. -/
def writeUInt64 (val : UInt64) (b : Storage) : Storage :=
  b.writeBytes block (host.layout 8 (b.converted host 8 val.toNat))

/-- `ReadBytes`, and what `ReadString` appends. -/
def readBytes (len : ℕ) (b : Storage) : Storage × Option (List UInt8) :=
  if len > b.length then (b, none)
  else ({ b with start := b.start + len }, some (readMem b.bytes b.start len))

/-- The number that is read into a variable of `n` bytes. -/
def readNumber (n : ℕ) (b : Storage) : Storage × Option ℕ :=
  match b.readBytes n with
  | (b, none) => (b, none)
  | (b, some v) =>
    let v := host.number v
    (b, some (if b.byteOrder = .network then host.networkToHost n v else v))

/-- `ReadUInt8`. -/
def readUInt8 (b : Storage) : Storage × Option UInt8 :=
  match b.readBytes 1 with
  | (b, none) => (b, none)
  | (b, some v) => (b, some (UInt8.ofNat (host.number v)))

/-- `ReadUInt16`. -/
def readUInt16 (b : Storage) : Storage × Option UInt16 :=
  let r := b.readNumber host 2
  (r.1, r.2.map UInt16.ofNat)

/-- `ReadUInt24`. The other byte of the variable is zero. -/
def readUInt24 (b : Storage) : Storage × Option UInt32 :=
  match b.readBytes 3 with
  | (b', none) => (b', none)
  | (b', some v) =>
    let v := host.number (if b.begin24 host = 1 then 0 :: v else v ++ [0])
    (b', some (UInt32.ofNat (if b.byteOrder = .network then host.networkToHost 4 v else v)))

/-- `ReadUInt32`. -/
def readUInt32 (b : Storage) : Storage × Option UInt32 :=
  let r := b.readNumber host 4
  (r.1, r.2.map UInt32.ofNat)

/-- `ReadUInt64`. -/
def readUInt64 (b : Storage) : Storage × Option UInt64 :=
  let r := b.readNumber host 8
  (r.1, r.2.map UInt64.ofNat)

/-- `Consume`. -/
def consume (size : ℕ) (b : Storage) : Storage × Bool :=
  if size > b.length then (b, false) else ({ b with start := b.start + size }, true)

end Operations

/-! ### What the buffer holds -/

/-- The bytes that have been written and not read. -/
def contents (b : Storage) : List UInt8 := readMem b.bytes b.start b.length

/-- The indices are in their order, and in the block. -/
structure Valid (b : Storage) : Prop where
  start_le : b.start ≤ b.end_
  end_le : b.end_ ≤ b.size

variable {b : Storage} {block : ℕ → UInt8}

@[simp] theorem length_contents (b : Storage) : b.contents.length = b.length := length_readMem _ _ _

theorem valid_construct_none (block : ℕ → UInt8) (len : ℕ) (byteOrder : ByteOrder) :
    (construct block none len byteOrder).Valid ∧ (construct block none len byteOrder).contents = [] :=
  ⟨⟨le_rfl, Nat.zero_le len⟩, rfl⟩

theorem valid_construct_some (block : ℕ → UInt8) (bytes : List UInt8) (byteOrder : ByteOrder) :
    (construct block (some bytes) bytes.length byteOrder).Valid ∧
      (construct block (some bytes) bytes.length byteOrder).contents = bytes :=
  ⟨⟨Nat.zero_le _, le_rfl⟩, readMem_memcpy block 0 bytes⟩

theorem resize_spec (block : ℕ → UInt8) {size : ℕ} (hsize : b.length ≤ size) :
    (b.resize block size).Valid ∧ (b.resize block size).contents = b.contents ∧
      size ≤ (b.resize block size).size ∧ (b.resize block size).start = 0 ∧
      (b.resize block size).byteOrder = b.byteOrder := by
  have hlen : min (b.end_ - b.start) size = b.length := min_eq_left hsize
  have hmoved (mem : ℕ → UInt8) :
      readMem (memcpy mem 0 (readMem b.bytes b.start b.length)) 0 b.length = b.contents := by
    have hread := readMem_memcpy mem 0 (readMem b.bytes b.start b.length)
    rw [length_readMem] at hread
    exact hread
  rw [resize]
  simp only [hlen]
  split
  next hfits => exact ⟨⟨Nat.zero_le _, hsize.trans hfits⟩, hmoved _, hfits, rfl, rfl⟩
  next hgrow => exact ⟨⟨Nat.zero_le _, hsize.trans (le_max_left _ _)⟩, hmoved _, le_max_left _ _, rfl, rfl⟩

theorem reserve_spec (block : ℕ → UInt8) (h : b.Valid) (len : ℕ) :
    (b.reserve block len).Valid ∧ (b.reserve block len).contents = b.contents ∧
      (b.reserve block len).end_ + len ≤ (b.reserve block len).size ∧
      (b.reserve block len).byteOrder = b.byteOrder := by
  rw [reserve]
  split
  · obtain ⟨hvalid, hcontents, hsize, hstart, horder⟩ :=
      resize_spec block (Nat.le_add_right b.length len)
    refine ⟨hvalid, hcontents, ?_, horder⟩
    have hlength := congrArg List.length hcontents
    rw [length_contents, length_contents, length, hstart] at hlength
    omega
  next hroom =>
    have hend := h.end_le
    rw [length, capacity] at hroom
    exact ⟨h, rfl, by omega, rfl⟩

theorem writeBytes_spec (h : b.Valid) (val : List UInt8) :
    (b.writeBytes block val).Valid ∧ (b.writeBytes block val).contents = b.contents ++ val ∧
      (b.writeBytes block val).byteOrder = b.byteOrder := by
  obtain ⟨hvalid, hcontents, hroom, horder⟩ := reserve_spec block h val.length
  rw [writeBytes]
  generalize b.reserve block val.length = r at *
  have hstart := hvalid.start_le
  refine ⟨⟨hstart.trans (Nat.le_add_right _ _), hroom⟩, ?_, horder⟩
  have hlength : r.end_ + val.length - r.start = r.length + val.length := by
    rw [length]
    omega
  have hplace : r.start + r.length = r.end_ := by
    omega
  rw [contents, length]
  rw [hlength, readMem_add, hplace, readMem_memcpy, readMem_memcpy_of_le _ _ hplace.le, ← hcontents]
  rfl

theorem readBytes_of_le (len : ℕ) (h : b.Valid) (hlen : len ≤ b.length) :
    ∃ b', b.readBytes len = (b', some (b.contents.take len)) ∧ b'.Valid ∧
      b'.contents = b.contents.drop len ∧ b'.byteOrder = b.byteOrder := by
  have hstart := h.start_le
  have hlen' := hlen
  rw [length] at hlen'
  refine ⟨{ b with start := b.start + len }, ?_, ⟨by dsimp only; omega, h.end_le⟩, ?_, rfl⟩
  · rw [readBytes, if_neg (Nat.not_lt.mpr hlen), contents, take_readMem _ _ hlen]
  · rw [contents, contents, drop_readMem _ _ hlen, length, length, Nat.sub_sub]

theorem readBytes_of_lt (len : ℕ) (hlen : b.length < len) : b.readBytes len = (b, none) := by
  rw [readBytes, if_pos hlen]

end Storage

/-! ### Values -/

/-- What can be written. -/
inductive Value
  | uint8 (val : UInt8)
  | uint16 (val : UInt16)
  | uint24 (val : UInt32)
  | uint32 (val : UInt32)
  | uint64 (val : UInt64)
  | string (val : List UInt8)
  | bytes (val : List UInt8)
  deriving DecidableEq

/-- What can be read. -/
inductive Kind
  | uint8
  | uint16
  | uint24
  | uint32
  | uint64
  | string (len : ℕ)
  | bytes (len : ℕ)

/-- What a value is read as. -/
def Value.kind : Value → Kind
  | uint8 _ => .uint8
  | uint16 _ => .uint16
  | uint24 _ => .uint24
  | uint32 _ => .uint32
  | uint64 _ => .uint64
  | string val => .string val.length
  | bytes val => .bytes val.length

/-- A number of 24 bits has no more. -/
def Value.InRange : Value → Prop
  | uint24 val => val.toNat < 2 ^ 24
  | _ => True

/-- The number of bytes that are read. -/
def Kind.size : Kind → ℕ
  | uint8 => 1
  | uint16 => 2
  | uint24 => 3
  | uint32 => 4
  | uint64 => 8
  | string len => len
  | bytes len => len

/-- The order in which the bytes of numbers are in a buffer. -/
def wireOrder (host : Host) : ByteOrder → Host
  | .network => .bigEndian
  | .host => host

/-- The bytes of a value in a buffer. -/
def encode (order : Host) : Value → List UInt8
  | .uint8 val => [val]
  | .uint16 val => order.layout 2 val.toNat
  | .uint24 val => order.layout 3 val.toNat
  | .uint32 val => order.layout 4 val.toNat
  | .uint64 val => order.layout 8 val.toNat
  | .string val => val
  | .bytes val => val

/-- The value that bytes of a buffer are read as. -/
def decode (order : Host) (bytes : List UInt8) : Kind → Value
  | .uint8 => .uint8 (UInt8.ofNat (order.number bytes))
  | .uint16 => .uint16 (UInt16.ofNat (order.number bytes))
  | .uint24 => .uint24 (UInt32.ofNat (order.number bytes))
  | .uint32 => .uint32 (UInt32.ofNat (order.number bytes))
  | .uint64 => .uint64 (UInt64.ofNat (order.number bytes))
  | .string _ => .string bytes
  | .bytes _ => .bytes bytes

theorem encode_network : (∀ val, encode .bigEndian (.uint8 val) = ByteBuffer.writeUInt8 val) ∧
      (∀ val, encode .bigEndian (.uint16 val) = ByteBuffer.writeUInt16 val) ∧
      (∀ val, encode .bigEndian (.uint32 val) = ByteBuffer.writeUInt32 val) ∧
      ∀ val, encode .bigEndian (.uint64 val) = ByteBuffer.writeUInt64 val := by
  refine ⟨fun val => ?_, fun _ => rfl, fun _ => rfl, fun _ => rfl⟩
  exact congrArg (fun b => [b]) UInt8.ofNat_toNat.symm

theorem length_encode (order : Host) (v : Value) : (encode order v).length = v.kind.size := by
  cases v <;> first | rfl | exact order.length_layout _ _

theorem decode_encode (order : Host) {v : Value} (h : v.InRange) :
    decode order (encode order v) v.kind = v := by
  cases v with
  | uint8 val =>
    have hbyte : order.number [val] = val.toNat := by cases order <;> simp [Host.number, ofBytes]
    rw [encode, Value.kind, decode, hbyte, UInt8.ofNat_toNat]
  | uint16 val =>
    rw [encode, Value.kind, decode, order.number_layout val.toNat_lt, UInt16.ofNat_toNat]
  | uint24 val =>
    have hval : val.toNat < 256 ^ 3 := h
    rw [encode, Value.kind, decode, order.number_layout hval, UInt32.ofNat_toNat]
  | uint32 val =>
    rw [encode, Value.kind, decode, order.number_layout val.toNat_lt, UInt32.ofNat_toNat]
  | uint64 val =>
    rw [encode, Value.kind, decode, order.number_layout val.toNat_lt, UInt64.ofNat_toNat]
  | string val => rfl
  | bytes val => rfl

namespace Storage

variable (host : Host) (block : ℕ → UInt8) {b : Storage}

/-- A value is written. -/
def write (b : Storage) : Value → Storage
  | .uint8 val => b.writeUInt8 block val
  | .uint16 val => b.writeUInt16 host block val
  | .uint24 val => b.writeUInt24 host block val
  | .uint32 val => b.writeUInt32 host block val
  | .uint64 val => b.writeUInt64 host block val
  | .string val => b.writeBytes block val
  | .bytes val => b.writeBytes block val

/-- A value is read, if the bytes are there. -/
def read (b : Storage) : Kind → Storage × Option Value
  | .uint8 => ((b.readUInt8 host).1, (b.readUInt8 host).2.map .uint8)
  | .uint16 => ((b.readUInt16 host).1, (b.readUInt16 host).2.map .uint16)
  | .uint24 => ((b.readUInt24 host).1, (b.readUInt24 host).2.map .uint24)
  | .uint32 => ((b.readUInt32 host).1, (b.readUInt32 host).2.map .uint32)
  | .uint64 => ((b.readUInt64 host).1, (b.readUInt64 host).2.map .uint64)
  | .string len => ((b.readBytes len).1, (b.readBytes len).2.map .string)
  | .bytes len => ((b.readBytes len).1, (b.readBytes len).2.map .bytes)

theorem layout_converted (n val : ℕ) :
    host.layout n (b.converted host n val) = (wireOrder host b.byteOrder).layout n val := by
  rw [converted]
  cases b.byteOrder with
  | network => exact host.layout_hostToNetwork n val
  | host => rfl

theorem layout_converted24 (val : ℕ) :
    ((host.layout 4 (b.converted host 4 val)).drop (b.begin24 host)).take 3 =
      (wireOrder host b.byteOrder).layout 3 val := by
  rw [layout_converted, begin24]
  cases b.byteOrder with
  | network => rfl
  | host =>
    cases host with
    | littleEndian => rfl
    | bigEndian => rfl

theorem write_spec (h : b.Valid) (v : Value) : (b.write host block v).Valid ∧
      (b.write host block v).contents = b.contents ++ encode (wireOrder host b.byteOrder) v ∧
      (b.write host block v).byteOrder = b.byteOrder := by
  cases v with
  | uint8 val => exact writeBytes_spec h [val]
  | uint16 val =>
    rw [write, writeUInt16, layout_converted]
    exact writeBytes_spec h _
  | uint24 val =>
    rw [write, writeUInt24, layout_converted24]
    exact writeBytes_spec h _
  | uint32 val =>
    rw [write, writeUInt32, layout_converted]
    exact writeBytes_spec h _
  | uint64 val =>
    rw [write, writeUInt64, layout_converted]
    exact writeBytes_spec h _
  | string val => exact writeBytes_spec h val
  | bytes val => exact writeBytes_spec h val

theorem number_converted {n : ℕ} {bytes : List UInt8} (hlen : bytes.length = n) (order : ByteOrder) :
    (if order = .network then host.networkToHost n (host.number bytes) else host.number bytes) =
      (wireOrder host order).number bytes := by
  cases order with
  | network => exact host.networkToHost_number hlen
  | host => rfl

theorem number_converted24 {bytes : List UInt8} (hlen : bytes.length = 3) : (if b.byteOrder = .network then
        host.networkToHost 4 (host.number (if b.begin24 host = 1 then 0 :: bytes else bytes ++ [0]))
      else host.number (if b.begin24 host = 1 then 0 :: bytes else bytes ++ [0])) =
      (wireOrder host b.byteOrder).number bytes := by
  have hfour : (if b.begin24 host = 1 then 0 :: bytes else bytes ++ [0]).length = 4 := by
    split <;> simp [hlen]
  rw [number_converted host hfour, begin24]
  cases b.byteOrder with
  | network => rfl
  | host =>
    cases host with
    | littleEndian =>
      change ofBytes (bytes ++ [0]).reverse = ofBytes bytes.reverse
      rw [List.reverse_append]
      rfl
    | bigEndian => rfl

theorem readNumber_of_le {n : ℕ} (h : b.Valid) (hlen : n ≤ b.length) :
    ∃ b', b.readNumber host n =
        (b', some ((wireOrder host b.byteOrder).number (b.contents.take n))) ∧ b'.Valid ∧
      b'.contents = b.contents.drop n ∧ b'.byteOrder = b.byteOrder := by
  obtain ⟨b', hread, hvalid, hcontents, horder⟩ := readBytes_of_le _ h hlen
  refine ⟨b', ?_, hvalid, hcontents, horder⟩
  have htaken : (b.contents.take n).length = n :=
    List.length_take_of_le (by rw [length_contents]; exact hlen)
  rw [readNumber, hread]
  dsimp only
  rw [horder, number_converted host htaken]

theorem readNumber_of_lt {n : ℕ} (hlen : b.length < n) : b.readNumber host n = (b, none) := by
  rw [readNumber, readBytes_of_lt _ hlen]

theorem read_of_le (h : b.Valid) (k : Kind) (hlen : k.size ≤ b.length) :
    ∃ b', b.read host k =
        (b', some (decode (wireOrder host b.byteOrder) (b.contents.take k.size) k)) ∧ b'.Valid ∧
      b'.contents = b.contents.drop k.size ∧ b'.byteOrder = b.byteOrder := by
  cases k with
  | uint8 =>
    obtain ⟨b', hread, hrest⟩ := readBytes_of_le 1 h hlen
    have htaken : (b.contents.take 1).length = 1 :=
      List.length_take_of_le (by rw [length_contents]; exact hlen)
    refine ⟨b', ?_, hrest⟩
    rw [read, readUInt8, hread]
    dsimp only [Option.map_some, Kind.size]
    rw [decode, host.number_of_length_one (wireOrder host b.byteOrder) htaken]
  | uint16 =>
    obtain ⟨b', hread, hrest⟩ := readNumber_of_le (n := 2) host h hlen
    exact ⟨b', by rw [read, readUInt16, hread]; rfl, hrest⟩
  | uint24 =>
    obtain ⟨b', hread, hvalid, hcontents, horder⟩ := readBytes_of_le _ h hlen
    refine ⟨b', ?_, hvalid, hcontents, horder⟩
    have htaken : (b.contents.take 3).length = 3 :=
      List.length_take_of_le (by rw [length_contents]; exact hlen)
    have hnumber := number_converted24 host (b := b) htaken
    rw [read, readUInt24, show b.readBytes 3 = _ from hread]
    dsimp only [Option.map_some, Kind.size]
    rw [hnumber]
    rfl
  | uint32 =>
    obtain ⟨b', hread, hrest⟩ := readNumber_of_le (n := 4) host h hlen
    exact ⟨b', by rw [read, readUInt32, hread]; rfl, hrest⟩
  | uint64 =>
    obtain ⟨b', hread, hrest⟩ := readNumber_of_le (n := 8) host h hlen
    exact ⟨b', by rw [read, readUInt64, hread]; rfl, hrest⟩
  | string len =>
    obtain ⟨b', hread, hrest⟩ := readBytes_of_le len h hlen
    exact ⟨b', by rw [read, hread]; rfl, hrest⟩
  | bytes len =>
    obtain ⟨b', hread, hrest⟩ := readBytes_of_le len h hlen
    exact ⟨b', by rw [read, hread]; rfl, hrest⟩

theorem read_of_lt (k : Kind) (hlen : b.length < k.size) : b.read host k = (b, none) := by
  cases k with
  | uint8 => rw [read, readUInt8, readBytes_of_lt 1 hlen]; rfl
  | uint16 => rw [read, readUInt16, readNumber_of_lt (n := 2) host hlen]; rfl
  | uint24 => rw [read, readUInt24, readBytes_of_lt 3 hlen]; rfl
  | uint32 => rw [read, readUInt32, readNumber_of_lt (n := 4) host hlen]; rfl
  | uint64 => rw [read, readUInt64, readNumber_of_lt (n := 8) host hlen]; rfl
  | string len => rw [read, readBytes_of_lt len hlen]; rfl
  | bytes len => rw [read, readBytes_of_lt len hlen]; rfl

theorem readBytes_contents (h : b.Valid) (len : ℕ) : ByteBuffer.readBytes len b.contents =
      (b.readBytes len).2.map fun l => (l, (b.readBytes len).1.contents) := by
  rw [ByteBuffer.readBytes, length_contents]
  split
  next hlt => rw [readBytes_of_lt _ hlt]; rfl
  next hle =>
    obtain ⟨b', hread, -, hcontents, -⟩ := readBytes_of_le _ h (Nat.not_lt.mp hle)
    rw [hread, Option.map_some, hcontents]

theorem consume_of_le {n : ℕ} (h : b.Valid) (hlen : n ≤ b.length) :
    ∃ b', b.consume n = (b', true) ∧ b'.Valid ∧ b'.contents = b.contents.drop n ∧
      b'.byteOrder = b.byteOrder := by
  obtain ⟨b', hread, hrest⟩ := readBytes_of_le _ h hlen
  refine ⟨b', ?_, hrest⟩
  rw [readBytes, if_neg (Nat.not_lt.mpr hlen)] at hread
  rw [consume, if_neg (Nat.not_lt.mpr hlen), (Prod.mk.inj hread).1]

theorem consume_of_lt {n : ℕ} (hlen : b.length < n) : b.consume n = (b, false) := by
  rw [consume, if_pos hlen]

end Storage

/-! ### A stream of values -/

/-- What is done with a buffer. A block of memory is there for a buffer that grows. -/
inductive Op
  | write (block : ℕ → UInt8) (v : Value)
  | read (k : Kind)
  | consume (n : ℕ)
  | resize (block : ℕ → UInt8) (size : ℕ)

/-- A buffer, with all that was written, and the number of bytes that were taken. -/
structure Traffic where
  buffer : Storage
  written : List UInt8
  position : ℕ

namespace Traffic

variable (host : Host)

/-- The order of the bytes of numbers in the stream. -/
def order (t : Traffic) : Host := wireOrder host t.buffer.byteOrder

/-- One operation. A buffer is resized to no less than it holds. -/
def step (t : Traffic) : Op → Option Traffic
  | .write block v =>
    some { t with
      buffer := t.buffer.write host block v, written := t.written ++ encode (t.order host) v }
  | .read k =>
    match t.buffer.read host k with
    | (b, none) => some { t with buffer := b }
    | (b, some _) => some { t with buffer := b, position := t.position + k.size }
  | .consume n =>
    match t.buffer.consume n with
    | (b, false) => some { t with buffer := b }
    | (b, true) => some { t with buffer := b, position := t.position + n }
  | .resize block size =>
    if size < t.buffer.length then none else some { t with buffer := t.buffer.resize block size }

/-- A new buffer: empty, or with bytes to read. -/
inductive Start : Traffic → Prop
  | empty (block : ℕ → UInt8) (len : ℕ) (byteOrder : ByteOrder) :
    Start ⟨.construct block none len byteOrder, [], 0⟩
  | bytes (block : ℕ → UInt8) (bytes : List UInt8) (byteOrder : ByteOrder) :
    Start ⟨.construct block (some bytes) bytes.length byteOrder, bytes, 0⟩

/-- The buffer holds the stream from the position on. -/
structure Holds (t : Traffic) : Prop where
  valid : t.buffer.Valid
  contents : t.buffer.contents = t.written.drop t.position
  position_le : t.position ≤ t.written.length

variable {host} {t t' : Traffic}

theorem holds_start (h : Start t) : Holds t := by
  cases h with
  | empty block len byteOrder =>
    obtain ⟨hvalid, hcontents⟩ := Storage.valid_construct_none block len byteOrder
    exact ⟨hvalid, hcontents, le_rfl⟩
  | bytes block bytes byteOrder =>
    obtain ⟨hvalid, hcontents⟩ := Storage.valid_construct_some block bytes byteOrder
    exact ⟨hvalid, hcontents, Nat.zero_le _⟩

theorem Holds.length_eq (h : Holds t) : t.buffer.length = t.written.length - t.position := by
  rw [← t.buffer.length_contents, h.contents, List.length_drop]

theorem Holds.take (h : Holds t) {b : Storage} {n : ℕ} (hn : n ≤ t.buffer.length) (hvalid : b.Valid)
    (hcontents : b.contents = t.buffer.contents.drop n) :
    Holds { t with buffer := b, position := t.position + n } := by
  have hlen := h.length_eq
  have hle := h.position_le
  refine ⟨hvalid, ?_, by dsimp only; omega⟩
  rw [hcontents, h.contents, List.drop_drop]

theorem Holds.step {op : Op} (h : Holds t) (hstep : t.step host op = some t') :
    Holds t' ∧ t'.buffer.byteOrder = t.buffer.byteOrder := by
  cases op with
  | write block v =>
    cases hstep
    obtain ⟨hvalid, hcontents, horder⟩ := Storage.write_spec host block h.valid v
    refine ⟨⟨hvalid, ?_, ?_⟩, horder⟩
    · dsimp only
      rw [hcontents, h.contents, List.drop_append_of_le_length h.position_le]
      rfl
    · dsimp only
      rw [List.length_append]
      exact h.position_le.trans (Nat.le_add_right _ _)
  | read k =>
    rw [Traffic.step] at hstep
    rcases Nat.lt_or_ge t.buffer.length k.size with hlt | hle
    · rw [Storage.read_of_lt host k hlt] at hstep
      cases hstep
      exact ⟨h, rfl⟩
    · obtain ⟨b, hread, hvalid, hcontents, horder⟩ := Storage.read_of_le host h.valid k hle
      rw [hread] at hstep
      cases hstep
      exact ⟨h.take hle hvalid hcontents, horder⟩
  | consume n =>
    rw [Traffic.step] at hstep
    rcases Nat.lt_or_ge t.buffer.length n with hlt | hle
    · rw [Storage.consume_of_lt hlt] at hstep
      cases hstep
      exact ⟨h, rfl⟩
    · obtain ⟨b, hread, hvalid, hcontents, horder⟩ := Storage.consume_of_le h.valid hle
      rw [hread] at hstep
      cases hstep
      exact ⟨h.take hle hvalid hcontents, horder⟩
  | resize block size =>
    obtain ⟨hsize, hsome⟩ := Option.ite_none_left_eq_some.mp hstep
    cases hsome
    obtain ⟨hvalid, hcontents, -, -, horder⟩ :=
      Storage.resize_spec block (Nat.not_lt.mp hsize)
    exact ⟨⟨hvalid, hcontents.trans h.contents, h.position_le⟩, horder⟩

theorem Holds.read_written (h : Holds t) {before after : List UInt8} {v : Value} (hv : v.InRange)
    (hwritten : t.written = before ++ (encode (t.order host) v ++ after))
    (hposition : before.length = t.position) :
    ∃ b, t.buffer.read host v.kind = (b, some v) ∧ b.contents = after := by
  have hcontents : t.buffer.contents = encode (t.order host) v ++ after := by
    rw [h.contents, hwritten, ← hposition, List.drop_left]
  have hlen : v.kind.size ≤ t.buffer.length := by
    rw [← t.buffer.length_contents, hcontents, List.length_append, length_encode]
    exact Nat.le_add_right _ _
  obtain ⟨b, hread, -, hrest, -⟩ := Storage.read_of_le host h.valid v.kind hlen
  rw [hcontents, List.take_left' (length_encode _ _)] at hread
  rw [hcontents, List.drop_left' (length_encode _ _)] at hrest
  refine ⟨b, hread.trans ?_, hrest⟩
  exact congrArg (fun w => (b, some w)) (decode_encode (t.order host) hv)

theorem prefix_step {op : Op} (hstep : t.step host op = some t') : t.written <+: t'.written := by
  cases op with
  | write block v =>
    cases hstep
    exact List.prefix_append _ _
  | read k =>
    rw [Traffic.step] at hstep
    split at hstep <;> cases hstep <;> exact List.prefix_refl _
  | consume n =>
    rw [Traffic.step] at hstep
    split at hstep <;> cases hstep <;> exact List.prefix_refl _
  | resize block size =>
    obtain ⟨-, hsome⟩ := Option.ite_none_left_eq_some.mp hstep
    cases hsome
    exact List.prefix_refl _

theorem Holds.run {ops : List Op} (h : Holds t) (hrun : Runs.run (Traffic.step host) t ops = some t') :
    Holds t' ∧ t.written <+: t'.written ∧ t'.order host = t.order host := by
  refine Runs.invariant_of_step (P := fun u => Holds u ∧ t.written <+: u.written ∧
    u.order host = t.order host) ?_ ⟨h, List.prefix_refl _, rfl⟩ hrun
  rintro u op u' ⟨hu, hprefix, horder⟩ hstep
  obtain ⟨hu', hsame⟩ := hu.step hstep
  refine ⟨hu', hprefix.trans (prefix_step hstep), ?_⟩
  rw [← horder, order, order, hsame]

/-- In every run of a new buffer, a read for which there are enough bytes returns what is in the stream at its
position, at that of an earlier write of its kind the value. A read or a `Consume` that asks for more changes
nothing. -/
theorem fifo_run {start : Traffic} {ops : List Op} (hstart : Start start)
    (hrun : Runs.run (step host) start ops = some t) :
    t.buffer.contents = t.written.drop t.position ∧ t.position ≤ t.written.length ∧
      (∀ k : Kind, k.size ≤ t.buffer.length → ∃ b,
        t.buffer.read host k =
          (b, some (decode (t.order host) ((t.written.drop t.position).take k.size) k)) ∧
        b.contents = t.written.drop (t.position + k.size)) ∧
      (∀ before block v after earlier, ops = before ++ .write block v :: after →
        Runs.run (step host) start before = some earlier → v.InRange → t.position = earlier.written.length →
            ∃ b, t.buffer.read host v.kind = (b, some v) ∧
              b.contents = t.written.drop (t.position + v.kind.size)) ∧
      (∀ n ≤ t.buffer.length, ∃ b, t.buffer.consume n = (b, true) ∧
        b.contents = t.written.drop (t.position + n)) ∧
      (∀ k : Kind, t.buffer.length < k.size → t.buffer.read host k = (t.buffer, none)) ∧
      ∀ n, t.buffer.length < n → t.buffer.consume n = (t.buffer, false) := by
  have h : Holds t := ((holds_start hstart).run hrun).1
  refine ⟨h.contents, h.position_le, fun k hk => ?_, ?_, fun n hn => ?_,
    fun k => Storage.read_of_lt host k, fun n => Storage.consume_of_lt⟩
  · obtain ⟨b, hread, -, hrest, -⟩ := Storage.read_of_le host h.valid k hk
    rw [h.contents] at hread hrest
    exact ⟨b, hread, by rw [hrest, List.drop_drop]⟩
  · rintro before block v after earlier rfl hearlier hv hposition
    rw [Runs.run_append, hearlier, Option.bind_some] at hrun
    obtain ⟨next, hwrite, hafter⟩ := Runs.run_cons hrun
    have hearlierHolds := ((holds_start hstart).run hearlier).1
    obtain ⟨-, horder⟩ := hearlierHolds.step hwrite
    obtain ⟨-, ⟨rest, hrest⟩, hsame⟩ := (hearlierHolds.step hwrite).1.run hafter
    cases hwrite
    have horder : t.order host = earlier.order host := hsame.trans (by rw [order, horder, order])
    have hwritten : t.written = earlier.written ++ (encode (t.order host) v ++ rest) := by
      rw [horder, ← List.append_assoc]
      exact hrest.symm
    obtain ⟨b, hread, hcontents⟩ := h.read_written hv hwritten hposition.symm
    refine ⟨b, hread, ?_⟩
    rw [hcontents, hposition, ← hrest, List.append_assoc, ← List.drop_drop, List.drop_left,
      List.drop_left' (length_encode _ _)]
  · obtain ⟨b, hread, -, hrest, -⟩ := Storage.consume_of_le h.valid hn
    rw [h.contents] at hrest
    exact ⟨b, hread, by rw [hrest, List.drop_drop]⟩

/-- A number of 24 bits is written into a block of two bytes, and read. -/
theorem fifo_run_uint24 : ∃ t b,
    Runs.run (step .littleEndian) ⟨.construct (fun _ => 0) none 2 .network, [], 0⟩
        [.write (fun _ => 0) (.uint24 0x010203)] = some t ∧
      t.buffer.read .littleEndian .uint24 = (b, some (.uint24 0x010203)) := by
  have hrange : (Value.uint24 0x010203).InRange := show (0x010203 : UInt32).toNat < 2 ^ 24 by decide
  have hrun : Runs.run (step .littleEndian) ⟨.construct (fun _ => 0) none 2 .network, [], 0⟩
      [.write (fun _ => 0) (.uint24 0x010203)] = some _ := rfl
  obtain ⟨b, hread, -⟩ := (fifo_run (.empty (fun _ => 0) 2 .network) hrun).2.2.2.1
    [] (fun _ => 0) (.uint24 0x010203) [] _ rfl rfl hrange rfl
  exact ⟨_, b, hrun, hread⟩

end Traffic

end Synciga.ByteBuffer
