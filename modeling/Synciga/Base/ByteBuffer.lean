import Synciga.Internal.BigEndian
import Synciga.Internal.ExactReader

/-!
# `talk_base::ByteBuffer`

A buffer in network order (`talk/base/bytebuffer.cc`): the list of the bytes that were written and not read. A
read that asks for more than there is fails.

## Main definitions

* `writeUInt8`, `readUInt8` and so on — numbers in network order
* `consume`, `readBytes` — from the front
-/

namespace Synciga.ByteBuffer

open BigEndian

/-! ### Reading -/

/-- `ReadBytes`, and `ReadString` into an empty string: the bytes read, and those left. -/
def readBytes (len : ℕ) (buf : List UInt8) : Option (List UInt8 × List UInt8) :=
  if buf.length < len then none else some (buf.take len, buf.drop len)

/-- `Consume`. -/
def consume (size : ℕ) (buf : List UInt8) : Option (List UInt8) :=
  if buf.length < size then none else some (buf.drop size)

variable (buf : List UInt8)

/-- `ReadUInt8`. -/
def readUInt8 : Option (UInt8 × List UInt8) :=
  (readBytes 1 buf).map fun r => (UInt8.ofNat (ofBytes r.1), r.2)

/-- `ReadUInt16`. -/
def readUInt16 : Option (UInt16 × List UInt8) :=
  (readBytes 2 buf).map fun r => (UInt16.ofNat (ofBytes r.1), r.2)

/-- `ReadUInt32`. -/
def readUInt32 : Option (UInt32 × List UInt8) :=
  (readBytes 4 buf).map fun r => (UInt32.ofNat (ofBytes r.1), r.2)

/-- `ReadUInt64`. -/
def readUInt64 : Option (UInt64 × List UInt8) :=
  (readBytes 8 buf).map fun r => (UInt64.ofNat (ofBytes r.1), r.2)

/-! ### Writing -/

variable (val : UInt8)

/-- `WriteUInt8`. -/
def writeUInt8 : List UInt8 := toBytes 1 val.toNat

/-- `WriteUInt16`. -/
def writeUInt16 (val : UInt16) : List UInt8 := toBytes 2 val.toNat

/-- `WriteUInt32`. -/
def writeUInt32 (val : UInt32) : List UInt8 := toBytes 4 val.toNat

/-- `WriteUInt64`. -/
def writeUInt64 (val : UInt64) : List UInt8 := toBytes 8 val.toNat

@[simp] theorem length_writeUInt8 : (writeUInt8 val).length = 1 := length_toBytes _ _

@[simp] theorem length_writeUInt16 (val : UInt16) : (writeUInt16 val).length = 2 :=
  length_toBytes _ _

@[simp] theorem length_writeUInt32 (val : UInt32) : (writeUInt32 val).length = 4 :=
  length_toBytes _ _

@[simp] theorem length_writeUInt64 (val : UInt64) : (writeUInt64 val).length = 8 :=
  length_toBytes _ _

/-! ### Reading back -/

@[simp] theorem readBytes_append {len : ℕ} {l : List UInt8} (h : l.length = len)
    (rest : List UInt8) : readBytes len (l ++ rest) = some (l, rest) := by
  subst h
  rw [readBytes, if_neg, List.take_left, List.drop_left]
  rw [List.length_append]
  omega

theorem readBytes_eq_some {len : ℕ} {buf l rest : List UInt8}
    (h : readBytes len buf = some (l, rest)) : buf = l ++ rest ∧ l.length = len := by
  rw [readBytes] at h
  split at h
  · cases h
  next hlen =>
    cases h
    exact ⟨(List.take_append_drop len buf).symm, List.length_take_of_le (Nat.not_lt.mp hlen)⟩

@[simp] theorem readUInt8_write (rest : List UInt8) :
    readUInt8 (writeUInt8 val ++ rest) = some (val, rest) := by
  rw [readUInt8, readBytes_append (length_writeUInt8 val), Option.map_some, writeUInt8,
    ofBytes_toBytes val.toNat_lt, UInt8.ofNat_toNat]

theorem writeUInt8_eq : writeUInt8 val = [val] := by
  rw [writeUInt8, toBytes, toBytes, UInt8.ofNat_toNat, List.nil_append]

@[simp] theorem readUInt8_cons (rest : List UInt8) : readUInt8 (val :: rest) = some (val, rest) := by
  have hread := readUInt8_write val rest
  rwa [writeUInt8_eq] at hread

@[simp] theorem readUInt16_write (val : UInt16) (rest : List UInt8) :
    readUInt16 (writeUInt16 val ++ rest) = some (val, rest) := by
  rw [readUInt16, readBytes_append (length_writeUInt16 val), Option.map_some, writeUInt16,
    ofBytes_toBytes val.toNat_lt, UInt16.ofNat_toNat]

theorem writeUInt16_append_inj {val val' : UInt16} {rest rest' : List UInt8}
    (h : writeUInt16 val ++ rest = writeUInt16 val' ++ rest') : val = val' ∧ rest = rest' := by
  have hread := congrArg readUInt16 h
  rw [readUInt16_write, readUInt16_write] at hread
  exact Prod.mk.inj (Option.some.inj hread)

@[simp] theorem readUInt32_write (val : UInt32) (rest : List UInt8) :
    readUInt32 (writeUInt32 val ++ rest) = some (val, rest) := by
  rw [readUInt32, readBytes_append (length_writeUInt32 val), Option.map_some, writeUInt32,
    ofBytes_toBytes val.toNat_lt, UInt32.ofNat_toNat]

@[simp] theorem readUInt64_write (val : UInt64) (rest : List UInt8) :
    readUInt64 (writeUInt64 val ++ rest) = some (val, rest) := by
  rw [readUInt64, readBytes_append (length_writeUInt64 val), Option.map_some, writeUInt64,
    ofBytes_toBytes val.toNat_lt, UInt64.ofNat_toNat]

/-! ### What a read takes -/

open ListReader (Exact)

theorem exact_readBytes (len : ℕ) : Exact len (readBytes len) := by
  intro buf l rest h
  obtain ⟨rfl, hlen⟩ := readBytes_eq_some h
  exact ⟨l, hlen, rfl, readBytes_append hlen⟩

theorem exact_readUInt8 : Exact 1 readUInt8 :=
  (exact_readBytes 1).map fun l => UInt8.ofNat (ofBytes l)

theorem exact_readUInt16 : Exact 2 readUInt16 :=
  (exact_readBytes 2).map fun l => UInt16.ofNat (ofBytes l)

theorem exact_readUInt32 : Exact 4 readUInt32 :=
  (exact_readBytes 4).map fun l => UInt32.ofNat (ofBytes l)

theorem exact_readUInt64 : Exact 8 readUInt64 :=
  (exact_readBytes 8).map fun l => UInt64.ofNat (ofBytes l)

/-! Numbers that are read stand in the buffer as they would be written. -/

theorem readUInt8_eq_some {buf rest : List UInt8} {val : UInt8} (h : readUInt8 buf = some (val, rest)) :
    buf = val :: rest := by
  cases buf with
  | nil => cases h
  | cons b buf =>
    rw [readUInt8_cons] at h
    cases h
    rfl

theorem readUInt16_eq_some {buf rest : List UInt8} {val : UInt16}
    (h : readUInt16 buf = some (val, rest)) : buf = writeUInt16 val ++ rest := by
  obtain ⟨⟨l, rest⟩, hread, hval⟩ := Option.map_eq_some_iff.mp h
  cases hval
  obtain ⟨rfl, hlen⟩ := readBytes_eq_some hread
  have hlt : ofBytes l < 256 ^ l.length := ofBytes_lt l
  rw [hlen] at hlt
  rw [writeUInt16, UInt16.toNat_ofNat_of_lt' hlt, ← hlen, toBytes_ofBytes]

theorem readUInt32_eq_some {buf rest : List UInt8} {val : UInt32}
    (h : readUInt32 buf = some (val, rest)) : buf = writeUInt32 val ++ rest := by
  obtain ⟨⟨l, rest⟩, hread, hval⟩ := Option.map_eq_some_iff.mp h
  cases hval
  obtain ⟨rfl, hlen⟩ := readBytes_eq_some hread
  have hlt : ofBytes l < 256 ^ l.length := ofBytes_lt l
  rw [hlen] at hlt
  rw [writeUInt32, UInt32.toNat_ofNat_of_lt' hlt, ← hlen, toBytes_ofBytes]

end Synciga.ByteBuffer
