import EndstoneExchange.NbtRoundTrip

/-!
# The log format of LevelDB

A log is a sequence of blocks. A record is written as fragments that each fit the rest
of a block behind a header; a rest too short for a header is filled with zeros. A write
batch is a record: a sequence number, a count, and the operations with counted keys and
values.
-/
namespace EndstoneExchange.LevelDbLogFormat
open NbtCodec NbtRoundTrip

def blockBytes : ℕ := 32 * 1024
def headerBytes : ℕ := 7

/-- What is left of the block at an offset. -/
def remaining (offset : ℕ) : ℕ := blockBytes - offset % blockBytes

theorem remaining_pos (offset : ℕ) : 0 < remaining offset := by
  have : offset % blockBytes < blockBytes := Nat.mod_lt _ (by decide)
  rw [remaining]
  omega

theorem remaining_le (offset : ℕ) : remaining offset ≤ blockBytes := Nat.sub_le _ _

/-- At the end of a block a whole one is left. -/
theorem remaining_next (offset : ℕ) : remaining (offset + remaining offset) = blockBytes := by
  have hlt : offset % blockBytes < blockBytes := Nat.mod_lt _ (by decide)
  have hsum : offset + remaining offset = blockBytes * (offset / blockBytes + 1) := by
    have := Nat.div_add_mod offset blockBytes
    rw [remaining, Nat.mul_add, Nat.mul_one]
    omega
  rw [hsum, remaining, Nat.mul_mod_right]
  rfl

section Records
variable (checksum : UInt8 → Bytes → ℕ)

/-- FULL, FIRST, LAST and MIDDLE. -/
def fragmentType (first last : Bool) : UInt8 :=
  if first then if last then 1 else 2 else if last then 4 else 3

/-- Checksum, length and type, then the data. -/
def physicalRecord (type : UInt8) (data : Bytes) : Bytes :=
  Writer.integral 4 (checksum type data) ++ (Writer.integral 2 data.length ++ (type :: data))

theorem physicalRecord_length (type : UInt8) (data : Bytes) :
    (physicalRecord checksum type data).length = headerBytes + data.length := by
  simp only [physicalRecord, List.length_append, integral_length, List.length_cons, headerBytes]
  omega

/-- The bytes of a record written from an offset on. -/
def emit (offset : ℕ) (first : Bool) (data : Bytes) : Bytes :=
  if remaining offset < headerBytes then
    List.replicate (remaining offset) 0 ++ emit (offset + remaining offset) first data
  else if data.length ≤ remaining offset - headerBytes then
    physicalRecord checksum (fragmentType first true) data
  else
    physicalRecord checksum (fragmentType first false) (data.take (remaining offset - headerBytes)) ++
      emit (offset + remaining offset) false (data.drop (remaining offset - headerBytes))
termination_by (data.length, if remaining offset ≤ headerBytes then 1 else 0)
decreasing_by
  · rw [remaining_next]
    refine Prod.Lex.right _ ?_
    rw [if_neg (by decide), if_pos (by omega)]
    exact Nat.one_pos
  · rw [remaining_next, if_neg (show ¬ blockBytes ≤ headerBytes by decide), List.length_drop]
    by_cases hfull : remaining offset = headerBytes
    · rw [hfull, if_pos le_rfl, Nat.sub_self, Nat.sub_zero]
      exact Prod.Lex.right _ Nat.one_pos
    · exact Prod.Lex.left _ _ (by omega)

theorem emit_whole {offset : ℕ} {data : Bytes} (first : Bool) (hroom : headerBytes ≤ remaining offset)
    (hfit : data.length ≤ remaining offset - headerBytes) :
    emit checksum offset first data = physicalRecord checksum (fragmentType first true) data := by
  rw [emit, if_neg (not_lt.mpr hroom), if_pos hfit]

/-- Every byte of the record is written. -/
theorem length_le_emit (offset : ℕ) (first : Bool) (data : Bytes) :
    data.length ≤ (emit checksum offset first data).length := by
  fun_induction emit checksum offset first data with
  | case1 offset first data h ih =>
    rw [List.length_append]
    omega
  | case2 offset first data h hfit =>
    rw [physicalRecord_length]
    omega
  | case3 offset first data h hfit ih =>
    rw [List.length_append, physicalRecord_length, List.length_take]
    rw [List.length_drop] at ih
    omega

end Records

section Batches

/-- A number below 2^32 in groups of seven bits, all but the last one marked. -/
def varint32 (n : ℕ) : Bytes :=
  if n < 128 then [UInt8.ofNat n] else UInt8.ofNat (n % 128 + 128) :: varint32 (n / 128)

theorem varint32_small {n : ℕ} (h : n < 128) : varint32 n = [UInt8.ofNat n] := by
  rw [varint32, if_pos h]

def counted (bytes : Bytes) : Bytes := varint32 bytes.length ++ bytes

theorem length_le_counted (bytes : Bytes) : bytes.length ≤ (counted bytes).length := by
  rw [counted, List.length_append]
  omega

inductive Operation where
  | put (key value : Bytes)
  | delete (key : Bytes)
  deriving DecidableEq, Repr

namespace Operation

def key : Operation → Bytes
  | .put key _ => key
  | .delete key => key

/-- What the key has afterwards. -/
def value : Operation → Option Bytes
  | .put _ value => some value
  | .delete _ => none

def bytes : Operation → Bytes
  | .put key value => 1 :: (counted key ++ counted value)
  | .delete key => 0 :: counted key

private theorem bytes_pos (operation : Operation) : 0 < operation.bytes.length := by
  cases operation <;> exact Nat.succ_pos _

end Operation

def operationsBytes (operations : List Operation) : Bytes := operations.flatMap Operation.bytes

theorem length_le_operationsBytes (operations : List Operation) :
    operations.length ≤ (operationsBytes operations).length := by
  induction operations with
  | nil => exact Nat.zero_le _
  | cons operation operations ih =>
    have hpos := operation.bytes_pos
    rw [operationsBytes, List.flatMap_cons, List.length_append, List.length_cons]
    rw [operationsBytes] at ih
    omega

structure Batch where
  sequence : ℕ
  operations : List Operation

/-- The header counts the operations. -/
def Batch.bytes (batch : Batch) : Bytes :=
  Writer.integral 8 batch.sequence ++
    (Writer.integral 4 batch.operations.length ++ operationsBytes batch.operations)

theorem Batch.bytes_length (batch : Batch) :
    batch.bytes.length = 12 + (operationsBytes batch.operations).length := by
  simp only [bytes, List.length_append, integral_length]
  omega

/-- The last operation on a key. -/
def lastOn (key : Bytes) (operations : List Operation) : Option Operation :=
  (operations.filter fun operation => operation.key = key).getLast?

end Batches

section Logs
variable (checksum : UInt8 → Bytes → ℕ)

def writeLog (offset : ℕ) : List Batch → Bytes
  | [] => []
  | batch :: batches =>
    let written := emit checksum offset true batch.bytes
    written ++ writeLog (offset + written.length) batches

theorem writeLog_cons (offset : ℕ) (batch : Batch) (batches : List Batch) :
    writeLog checksum offset (batch :: batches) = emit checksum offset true batch.bytes ++
      writeLog checksum (offset + (emit checksum offset true batch.bytes).length) batches := rfl

/-- The batches that end no later than `stop`. -/
def batchesInside (offset stop : ℕ) : List Batch → List Batch
  | [] => []
  | batch :: batches =>
    let next := offset + (emit checksum offset true batch.bytes).length
    if next ≤ stop then batch :: batchesInside next stop batches else []

theorem batchesInside_all {offset stop : ℕ} {batches : List Batch}
    (h : offset + (writeLog checksum offset batches).length ≤ stop) :
    batchesInside checksum offset stop batches = batches := by
  induction batches generalizing offset with
  | nil => rfl
  | cons batch batches ih =>
    rw [writeLog_cons, List.length_append, ← Nat.add_assoc] at h
    rw [batchesInside, if_pos (by omega), ih h]

theorem length_le_writeLog {offset : ℕ} {batch : Batch} {batches : List Batch} (h : batch ∈ batches) :
    batch.bytes.length ≤ (writeLog checksum offset batches).length := by
  induction batches generalizing offset with
  | nil => cases h
  | cons b batches ih =>
    rw [writeLog_cons, List.length_append]
    rcases List.mem_cons.mp h with rfl | h
    · have := length_le_emit checksum offset true batch.bytes
      omega
    · have := @ih (offset + (emit checksum offset true b.bytes).length) h
      omega

end Logs

end EndstoneExchange.LevelDbLogFormat
