import EndstoneExchange.StructureReader

/-!
# Recovery from a torn log

The reader finds in any part of a log what the batches that lie completely inside it did,
and nothing of the batch that the part cuts off.
-/
namespace EndstoneExchange.LevelDbRecovery
open NbtCodec NbtRoundTrip LevelDbLogFormat StructureReader

section Batches
variable {wantedKey : Bytes}

/-- `shift` is the weight of the next group, and the number fits what is left of 32 bits. -/
theorem varUint32Bytes_varint32 {rounds shift result n : ℕ} (rest : Bytes) (hshift : shift + 7 * rounds = 35)
    (hn : n < 2 ^ (32 - shift)) (hr : 0 < rounds) :
    varUint32Bytes rounds shift result (varint32 n ++ rest) = some (result + n * 2 ^ shift, rest) := by
  induction rounds generalizing shift result n with
  | zero => exact absurd hr (lt_irrefl 0)
  | succ rounds ih =>
    have hfifth : shift = 28 → n < 16 := by
      rintro rfl
      exact hn
    rw [varint32]
    split_ifs with h
    · have hbyte : (UInt8.ofNat n).toNat = n := by
        rw [UInt8.toNat_ofNat', Nat.mod_eq_of_lt (by omega)]
      rw [List.singleton_append, varUint32Bytes, hbyte, if_neg (fun hc => absurd (hfifth hc.1) (by omega)),
        if_pos h, Nat.mod_eq_of_lt h]
    · have hbyte : (UInt8.ofNat (n % 128 + 128)).toNat = n % 128 + 128 := by
        rw [UInt8.toNat_ofNat', Nat.mod_eq_of_lt (by omega)]
      have hearly : shift ≠ 28 := fun hc => absurd (hfifth hc) (by omega)
      have hmore : 0 < rounds := by
        rcases Nat.eq_zero_or_pos rounds with rfl | hpos
        · omega
        · exact hpos
      have hpow : 2 ^ (32 - shift) = 2 ^ 7 * 2 ^ (32 - (shift + 7)) := by
        rw [← pow_add]
        congr 1
        omega
      have hgroup : n / 128 < 2 ^ (32 - (shift + 7)) := by
        rw [hpow] at hn
        exact Nat.div_lt_of_lt_mul hn
      have hsum : result + n % 128 * 2 ^ shift + n / 128 * 2 ^ (shift + 7) = result + n * 2 ^ shift := by
        have hdiv := Nat.div_add_mod n 128
        calc result + n % 128 * 2 ^ shift + n / 128 * 2 ^ (shift + 7)
            = result + (128 * (n / 128) + n % 128) * 2 ^ shift := by rw [pow_add]; ring
          _ = result + n * 2 ^ shift := by rw [hdiv]
      have hlow : (n % 128 + 128) % 128 = n % 128 := by omega
      rw [List.cons_append, varUint32Bytes, hbyte, if_neg (fun hc => hearly hc.1), if_neg (by omega), hlow,
        ih (by omega) hgroup hmore, hsum]

private theorem readVarUint32_varint32 {n : ℕ} (rest : Bytes) (hn : n < 2 ^ 32) :
    readVarUint32 (varint32 n ++ rest) = some (n, rest) := by
  rw [readVarUint32, varUint32Bytes_varint32 rest rfl hn (by decide), Nat.zero_add, pow_zero, Nat.mul_one]

theorem readCounted_counted {bytes : Bytes} (rest : Bytes) (hn : bytes.length < 2 ^ 32) :
    readCounted (counted bytes ++ rest) = some (bytes, rest) := by
  have hfits : ¬ bytes.length > (bytes ++ rest).length := by
    rw [List.length_append]
    omega
  rw [readCounted, counted, List.append_assoc, readVarUint32_varint32 _ hn]
  simp only [hfits, if_false, List.take_left, List.drop_left]

/-- What one operation makes of the findings. -/
def applied (wantedKey : Bytes) (found : Found) (operation : Operation) : Found :=
  if operation.key = wantedKey then ⟨operation.value, true⟩ else found

private theorem inspectOperations_operations {operations : List Operation} (rest : Bytes) (found : Found)
    (hsize : (operationsBytes operations).length < 2 ^ 32) :
    inspectOperations wantedKey operations.length (operationsBytes operations ++ rest) found =
      operations.foldl (applied wantedKey) found := by
  induction operations generalizing found with
  | nil => rfl
  | cons operation operations ih =>
    rw [operationsBytes, List.flatMap_cons, List.length_append] at hsize
    have hrest := fun found => ih found (by rw [operationsBytes]; omega)
    cases operation with
    | delete key =>
      have hkey := length_le_counted key
      rw [Operation.bytes, List.length_cons] at hsize
      have hread := readCounted_counted (operationsBytes operations ++ rest) (show key.length < 2 ^ 32 by omega)
      rw [operationsBytes, List.flatMap_cons, Operation.bytes, List.length_cons, List.cons_append, List.cons_append,
        List.append_assoc, ← operationsBytes, inspectOperations, hread, List.foldl_cons]
      simp only [if_true]
      exact hrest _
    | put key value =>
      have hkey := length_le_counted key
      have hvalue := length_le_counted value
      rw [Operation.bytes, List.length_cons, List.length_append] at hsize
      have hread := readCounted_counted (counted value ++ (operationsBytes operations ++ rest))
        (show key.length < 2 ^ 32 by omega)
      have hread' := readCounted_counted (operationsBytes operations ++ rest) (show value.length < 2 ^ 32 by omega)
      rw [operationsBytes, List.flatMap_cons, Operation.bytes, List.length_cons, List.cons_append, List.cons_append,
        List.append_assoc, List.append_assoc, ← operationsBytes, inspectOperations, hread, List.foldl_cons]
      simp only [hread', if_false, ne_eq, not_true_eq_false]
      exact hrest _

private theorem inspectWriteBatch_bytes (batch : Batch) (found : Found) (hsize : batch.bytes.length ≤ maxCaptureBytes) :
    inspectWriteBatch batch.bytes wantedKey found =
      .ok (batch.operations.foldl (applied wantedKey) found) := by
  have hlength := batch.bytes_length
  have hmax : maxCaptureBytes < 2 ^ 32 := by decide
  have hcount := length_le_operationsBytes batch.operations
  have hdrop : batch.bytes.drop 8 =
      Writer.integral 4 batch.operations.length ++ operationsBytes batch.operations :=
    List.drop_left' (integral_length 8 _)
  have hbody : batch.bytes.drop 12 = operationsBytes batch.operations := by
    rw [show (12 : ℕ) = 8 + 4 from rfl, ← List.drop_drop, hdrop]
    exact List.drop_left' (integral_length 4 _)
  have hread : littleUint32 batch.bytes 8 = .ok batch.operations.length := by
    rw [littleUint32, if_neg (by omega), hdrop, List.take_left' (integral_length 4 _),
      ofBytes_integral (by omega : batch.operations.length < 256 ^ 4)]
    rfl
  have hoperations := @inspectOperations_operations wantedKey _ [] found
    (show (operationsBytes batch.operations).length < 2 ^ 32 by omega)
  rw [List.append_nil] at hoperations
  rw [inspectWriteBatch, if_neg (by omega), hread, hbody, ← hoperations]
  rfl

end Batches

section Fragments
variable {wantedKey : Bytes} {checksum : UInt8 → Bytes → ℕ} {position : ℕ} {rest data : Bytes} {scan : Scan}

theorem scanLog_end (h : rest.length < headerBytes) : scanLog wantedKey position rest scan = .ok scan := by
  rw [scanLog, if_pos h]
  rfl

/-- Too little of a block for a header is passed over, also where the log ends in it. -/
theorem scanLog_trailer (hshort : remaining position < headerBytes) :
    scanLog wantedKey position rest scan =
      scanLog wantedKey (position + remaining position) (rest.drop (remaining position)) scan := by
  by_cases h : rest.length < headerBytes
  · have hdrop : (rest.drop (remaining position)).length < headerBytes := by
      rw [List.length_drop]
      omega
    rw [scanLog_end h, scanLog_end hdrop]
  · rw [scanLog, if_neg h, if_pos hshort]

theorem physicalRecord_header (type : UInt8) (hdata : data.length < 2 ^ 16) (n : ℕ) :
    let record := (physicalRecord checksum type data).take (headerBytes + n) ++ rest
    headerLength record = data.length ∧ headerType record = type := by
  intro record
  have hchecksum := integral_length 4 (checksum type data)
  have hlength := integral_length 2 data.length
  have hrecord : record = Writer.integral 4 (checksum type data) ++
      (Writer.integral 2 data.length ++ (type :: (data.take n ++ rest))) := by
    have hsplit : headerBytes + n = (Writer.integral 4 (checksum type data)).length +
        ((Writer.integral 2 data.length).length + (n + 1)) := by
      rw [hchecksum, hlength, headerBytes]
      omega
    change (physicalRecord checksum type data).take (headerBytes + n) ++ rest = _
    rw [physicalRecord, hsplit, List.take_length_add_append, List.take_length_add_append, List.take_succ_cons]
    simp only [List.append_assoc, List.cons_append]
  refine ⟨?_, ?_⟩
  · rw [headerLength, hrecord, List.drop_left' hchecksum, List.take_left' hlength, ofBytes_integral hdata]
  · have hfront : (Writer.integral 4 (checksum type data) ++ Writer.integral 2 data.length).length = 6 := by
      rw [List.length_append, hchecksum, hlength]
    rw [headerType, hrecord, ← List.append_assoc, List.getD_eq_getElem?_getD,
      List.getElem?_append_right (by rw [hfront]), hfront]
    rfl

private theorem physicalRecord_data (type : UInt8) :
    (physicalRecord checksum type data ++ rest).drop headerBytes = data ++ rest := by
  have hheader : (Writer.integral 4 (checksum type data) ++ (Writer.integral 2 data.length ++ [type])).length =
      headerBytes := by
    rw [List.length_append, List.length_append, integral_length, integral_length]
    rfl
  have hsplit : physicalRecord checksum type data ++ rest =
      (Writer.integral 4 (checksum type data) ++ (Writer.integral 2 data.length ++ [type])) ++ (data ++ rest) := by
    simp only [physicalRecord, List.append_assoc, List.cons_append, List.nil_append]
  rw [hsplit, List.drop_left' hheader]

/-- A fragment that fits its block is read, whatever follows it. -/
theorem scanLog_fragment {type : UInt8} (htype : type ≠ 0) (hroom : headerBytes ≤ remaining position)
    (hfit : data.length ≤ remaining position - headerBytes) :
    scanLog wantedKey position (physicalRecord checksum type data ++ rest) scan = (do
      let scan ← scan.fragment wantedKey type data
      scanLog wantedKey (position + headerBytes + data.length) rest scan) := by
  have hsmall : data.length < 2 ^ 16 := by
    have := remaining_le position
    have hblock : blockBytes < 2 ^ 16 := by decide
    omega
  have hlength := @physicalRecord_length checksum type data
  have hwhole : (physicalRecord checksum type data).take (headerBytes + data.length) =
      physicalRecord checksum type data := List.take_of_length_le hlength.le
  obtain ⟨hl, ht⟩ := @physicalRecord_header checksum rest data type hsmall data.length
  rw [hwhole] at hl ht
  have htotal : (physicalRecord checksum type data ++ rest).length = headerBytes + data.length + rest.length := by
    rw [List.length_append, hlength]
  have hdata : ((physicalRecord checksum type data ++ rest).drop headerBytes).take data.length = data := by
    rw [physicalRecord_data, List.take_left]
  have hrest : (physicalRecord checksum type data ++ rest).drop (headerBytes + data.length) = rest :=
    List.drop_left' hlength
  rw [scanLog, if_neg (by omega), if_neg (by omega), hl, ht, if_neg (fun h => htype h.2), if_neg (by omega), hdata,
    hrest]

/-- Nothing is read of a fragment that is cut off. -/
theorem scanLog_cut {type : UInt8} {n : ℕ} (htype : type ≠ 0) (hroom : headerBytes ≤ remaining position)
    (hfit : data.length ≤ remaining position - headerBytes) (hn : n < headerBytes + data.length) :
    scanLog wantedKey position ((physicalRecord checksum type data).take n) scan = .ok scan := by
  have hsmall : data.length < 2 ^ 16 := by
    have := remaining_le position
    have hblock : blockBytes < 2 ^ 16 := by decide
    omega
  have hlength : ((physicalRecord checksum type data).take n).length = n := by
    rw [List.length_take, physicalRecord_length, Nat.min_eq_left hn.le]
  by_cases hshort : n < headerBytes
  · exact scanLog_end (by rw [hlength]; exact hshort)
  · obtain ⟨hl, ht⟩ := @physicalRecord_header checksum [] data type hsmall (n - headerBytes)
    rw [List.append_nil, Nat.add_sub_cancel' (not_lt.mp hshort)] at hl ht
    rw [scanLog, hlength, if_neg hshort, if_neg (by omega), hl, ht, if_neg (fun h => htype h.2),
      if_pos (.inr (by omega))]
    rfl

end Fragments

section Records
variable {wantedKey : Bytes} {checksum : UInt8 → Bytes → ℕ} {position : ℕ} {first : Bool} {rest data : Bytes}
  {scan : Scan} {found : Found}

/-- The part of a record that is already read. -/
def collected (first : Bool) (scan : Scan) : Bytes := if first then [] else scan.fragmented

/-- The record can still be read whole. -/
structure Ready (first : Bool) (data : Bytes) (scan : Scan) : Prop where
  collecting : first = false → scan.collecting = true
  size : (collected first scan).length + data.length ≤ maxCaptureBytes

private theorem fragment_last (h : Ready first data scan)
    (hbatch : inspectWriteBatch (collected first scan ++ data) wantedKey scan.found = .ok found) :
    scan.fragment wantedKey (fragmentType first true) data = .ok ⟨[], false, found⟩ := by
  cases first with
  | true =>
    change inspectWriteBatch data wantedKey scan.found = .ok found at hbatch
    simp only [fragmentType, if_true, Scan.fragment, hbatch]
    rfl
  | false =>
    have hguard : scan.collecting = true ∧ scan.fragmented.length + data.length ≤ maxCaptureBytes :=
      ⟨h.collecting rfl, h.size⟩
    change inspectWriteBatch (scan.fragmented ++ data) wantedKey scan.found = .ok found at hbatch
    have htype : (fragmentType false true = 1) = False ∧ (fragmentType false true = 2) = False ∧
        (fragmentType false true = 3) = False ∧ (fragmentType false true = 4) = True := by decide
    simp only [Scan.fragment, htype, if_false, if_true, if_pos hguard, hbatch]
    rfl

theorem fragment_more (h : Ready first data scan) :
    scan.fragment wantedKey (fragmentType first false) data =
      .ok ⟨collected first scan ++ data, true, scan.found⟩ := by
  cases first with
  | true => rfl
  | false =>
    have hcollecting := h.collecting rfl
    have hguard : scan.collecting = true ∧ scan.fragmented.length + data.length ≤ maxCaptureBytes :=
      ⟨hcollecting, h.size⟩
    have htype : (fragmentType false false = 1) = False ∧ (fragmentType false false = 2) = False ∧
        (fragmentType false false = 3) = True := by decide
    simp only [Scan.fragment, htype, if_false, if_true, if_pos hguard]
    rw [hcollecting]
    rfl

theorem fragmentType_ne (first last : Bool) : fragmentType first last ≠ 0 := by
  cases first <;> cases last <;> decide

theorem Ready.take (h : Ready first data scan) (n : ℕ) : Ready first (data.take n) scan := by
  refine ⟨h.collecting, ?_⟩
  have := h.size
  rw [List.length_take]
  omega

/-- After a fragment the rest of the record remains to be read. -/
theorem Ready.drop (h : Ready first data scan) (n : ℕ) :
    Ready false (data.drop n) ⟨collected first scan ++ data.take n, true, scan.found⟩ := by
  refine ⟨fun _ => rfl, ?_⟩
  have hsize := h.size
  have hdata : (data.take n).length + (data.drop n).length = data.length := by
    rw [← List.length_append, List.take_append_drop]
  change (collected first scan ++ data.take n).length + _ ≤ _
  rw [List.length_append]
  omega

/-- A record that is completely inside the log is read as a whole. -/
theorem scanLog_emit (h : Ready first data scan)
    (hbatch : inspectWriteBatch (collected first scan ++ data) wantedKey scan.found = .ok found) :
    scanLog wantedKey position (emit checksum position first data ++ rest) scan =
      scanLog wantedKey (position + (emit checksum position first data).length) rest ⟨[], false, found⟩ := by
  fun_induction emit checksum position first data generalizing scan with
  | case1 position first data hshort ih =>
    have hzeros : (List.replicate (remaining position) (0 : UInt8)).length = remaining position :=
      List.length_replicate
    rw [scanLog_trailer hshort, List.append_assoc, List.drop_left' hzeros, ih h hbatch, List.length_append, hzeros,
      Nat.add_assoc]
  | case2 position first data hroom hfit =>
    rw [scanLog_fragment (fragmentType_ne first true) (not_lt.mp hroom) hfit, fragment_last h hbatch,
      physicalRecord_length, Nat.add_assoc]
    rfl
  | case3 position first data hroom hfit ih =>
    have hpart : (data.take (remaining position - headerBytes)).length = remaining position - headerBytes :=
      List.length_take_of_le (not_le.mp hfit).le
    have hnext : position + headerBytes + (remaining position - headerBytes) = position + remaining position := by
      omega
    have hwhole : collected first scan ++ data.take (remaining position - headerBytes) ++
        data.drop (remaining position - headerBytes) = collected first scan ++ data := by
      rw [List.append_assoc, List.take_append_drop]
    rw [List.append_assoc, scanLog_fragment (fragmentType_ne first false) (not_lt.mp hroom) hpart.le,
      fragment_more (h.take _), hpart, hnext, List.length_append, physicalRecord_length, hpart,
      Nat.add_sub_cancel' (not_lt.mp hroom), ← Nat.add_assoc]
    exact ih (h.drop _) (hwhole.symm ▸ hbatch)

/-- A record that is cut off changes no finding. -/
theorem scanLog_emit_cut {n : ℕ} (h : Ready first data scan)
    (hn : n < (emit checksum position first data).length) :
    ∃ scan', scanLog wantedKey position ((emit checksum position first data).take n) scan = .ok scan' ∧
      scan'.found = scan.found := by
  fun_induction emit checksum position first data generalizing scan n with
  | case1 position first data hshort ih =>
    have hzeros : (List.replicate (remaining position) (0 : UInt8)).length = remaining position :=
      List.length_replicate
    by_cases hend : n < headerBytes
    · exact ⟨scan, scanLog_end (by rw [List.length_take]; omega), rfl⟩
    · rw [List.length_append, hzeros] at hn
      have hsplit : n = (List.replicate (remaining position) (0 : UInt8)).length + (n - remaining position) := by
        rw [hzeros]
        omega
      rw [scanLog_trailer hshort, hsplit, List.take_length_add_append, List.drop_left' hzeros]
      exact ih h (by omega)
  | case2 position first data hroom hfit =>
    rw [physicalRecord_length] at hn
    exact ⟨scan, scanLog_cut (fragmentType_ne first true) (not_lt.mp hroom) hfit hn, rfl⟩
  | case3 position first data hroom hfit ih =>
    have hpart : (data.take (remaining position - headerBytes)).length = remaining position - headerBytes :=
      List.length_take_of_le (not_le.mp hfit).le
    have hlength := @physicalRecord_length checksum (fragmentType first false)
      (data.take (remaining position - headerBytes))
    rw [hpart, Nat.add_sub_cancel' (not_lt.mp hroom)] at hlength
    by_cases hinside : n < remaining position
    · rw [List.take_append_of_le_length (by omega)]
      exact ⟨scan, scanLog_cut (fragmentType_ne first false) (not_lt.mp hroom) hpart.le (by omega), rfl⟩
    · rw [List.length_append, hlength] at hn
      have hsplit : n = (physicalRecord checksum (fragmentType first false)
          (data.take (remaining position - headerBytes))).length + (n - remaining position) := by
        omega
      have hnext : position + headerBytes + (remaining position - headerBytes) = position + remaining position := by
        omega
      rw [hsplit, List.take_length_add_append,
        scanLog_fragment (fragmentType_ne first false) (not_lt.mp hroom) hpart.le, fragment_more (h.take _), hpart, hnext]
      exact ih (h.drop _) (by omega)

end Records

section Logs
variable {wantedKey : Bytes} {checksum : UInt8 → Bytes → ℕ} {offset : ℕ} {batches : List Batch} {found : Found}

/-- The operations of the batches, in order. -/
def operationsOf (batches : List Batch) : List Operation := batches.flatMap Batch.operations

theorem scanLog_writeLog {n : ℕ} {scan : Scan} (hsize : ∀ batch ∈ batches, batch.bytes.length ≤ maxCaptureBytes) :
    ∃ scan', scanLog wantedKey offset ((writeLog checksum offset batches).take n) scan = .ok scan' ∧
      scan'.found = (operationsOf (batchesInside checksum offset (offset + n) batches)).foldl
        (applied wantedKey) scan.found := by
  induction batches generalizing offset n scan with
  | nil =>
    rw [writeLog, List.take_nil]
    exact ⟨scan, scanLog_end (by decide), rfl⟩
  | cons batch batches ih =>
    have hready : Ready true batch.bytes scan :=
      ⟨fun h => (nomatch h), (Nat.zero_add _).le.trans (hsize batch List.mem_cons_self)⟩
    by_cases hin : (emit checksum offset true batch.bytes).length ≤ n
    · obtain ⟨m, rfl⟩ := Nat.exists_eq_add_of_le hin
      obtain ⟨scan', hscan, hfound⟩ := @ih (offset + (emit checksum offset true batch.bytes).length) m
        ⟨[], false, batch.operations.foldl (applied wantedKey) scan.found⟩
        fun b hb => hsize b (List.mem_cons_of_mem _ hb)
      refine ⟨scan', ?_, ?_⟩
      · rw [writeLog_cons, List.take_length_add_append,
          scanLog_emit hready (inspectWriteBatch_bytes batch scan.found (hsize batch List.mem_cons_self)), hscan]
      · rw [batchesInside, if_pos (by omega), operationsOf, List.flatMap_cons, List.foldl_append, hfound,
          operationsOf, Nat.add_assoc]
    · obtain ⟨scan', hscan, hfound⟩ := @scanLog_emit_cut wantedKey _ _ _ _ _ n hready (not_le.mp hin)
      refine ⟨scan', ?_, ?_⟩
      · rw [writeLog_cons, List.take_append_of_le_length (not_le.mp hin).le, hscan]
      · rw [batchesInside, if_neg (by omega), hfound]
        rfl

/-- The findings after the last operation on the wanted key, if there is one. -/
def settled (found : Found) : Option Operation → Found
  | none => found
  | some operation => ⟨operation.value, true⟩

theorem foldl_apply (operations : List Operation) :
    operations.foldl (applied wantedKey) found = settled found (lastOn wantedKey operations) := by
  induction operations using List.reverseRecOn with
  | nil => rfl
  | append_singleton operations operation ih =>
    rw [List.foldl_append, ih, List.foldl_cons, List.foldl_nil, applied, lastOn, lastOn, List.filter_append]
    by_cases h : operation.key = wantedKey
    · rw [if_pos h, List.filter_cons_of_pos (by simpa using h), List.filter_nil, List.getLast?_append_of_ne_nil]
      · rfl
      · exact List.cons_ne_nil _ _
    · rw [if_neg h, List.filter_cons_of_neg (by simpa using h), List.filter_nil, List.append_nil]

/-- The reader inverts the writer on every part of a log. -/
theorem log_recovered (checksum : UInt8 → Bytes → ℕ) (batches : List Batch) (path : String) (part wantedKey : Bytes)
    (found : Found) (hsize : (writeLog checksum 0 batches).length ≤ maxCaptureBytes)
    (hpart : part <+: writeLog checksum 0 batches) :
    inspectLevelDbLog ⟨path, part⟩ wantedKey found =
      .ok (settled found (lastOn wantedKey (operationsOf (batchesInside checksum 0 part.length batches)))) := by
  have hall : ∀ batch ∈ batches, batch.bytes.length ≤ maxCaptureBytes :=
    fun batch hb => (length_le_writeLog checksum hb).trans hsize
  obtain ⟨scan, hscan, hfound⟩ := @scanLog_writeLog wantedKey checksum 0 batches part.length { found } hall
  rw [← List.prefix_iff_eq_take.mp hpart] at hscan
  rw [Nat.zero_add, foldl_apply] at hfound
  rw [← hfound]
  by_cases hempty : part.length = 0
  · rw [scanLog_end (by rw [hempty]; decide)] at hscan
    obtain rfl := Except.ok.inj hscan
    rw [inspectLevelDbLog, if_pos hempty]
    rfl
  · have hread : readFile ⟨path, part⟩ = .ok part := by
      rw [readFile, if_neg]
      · rfl
      · have := hpart.length_le
        change ¬ (part.length = 0 ∨ part.length > maxCaptureBytes)
        omega
    rw [inspectLevelDbLog, if_neg hempty, hread]
    change (do let scan ← scanLog wantedKey 0 part { found }; return scan.found : Except String Found) = _
    rw [hscan]
    rfl

/-- A key is put and then deleted. -/
def sampleBatches : List Batch := [⟨1, [.put [107] [118]]⟩, ⟨2, [.delete [107]]⟩]

/-- The masked checksums of the two records. -/
def sampleChecksum (_ : UInt8) (data : Bytes) : ℕ := if data.length = 17 then 0x4d5ae7 else 0x6664e3f7

private theorem sampleBatches_length : sampleBatches.map (·.bytes.length) = [17, 15] := by
  simp [sampleBatches, Batch.bytes_length, operationsBytes, Operation.bytes, counted, varint32_small]

private theorem sampleLog_length : (writeLog sampleChecksum 0 sampleBatches).length = 46 := by
  have hlengths := sampleBatches_length
  simp only [sampleBatches, List.map_cons, List.map_nil, List.cons.injEq, and_true] at hlengths
  have hput := @emit_whole sampleChecksum 0 _ true (by decide) (by rw [hlengths.1]; decide)
  have hoffset : 0 + (physicalRecord sampleChecksum (fragmentType true true)
      (Batch.bytes ⟨1, [.put [107] [118]]⟩)).length = 24 := by
    rw [physicalRecord_length, hlengths.1]
    rfl
  have hdelete := @emit_whole sampleChecksum 24 _ true (by decide) (by rw [hlengths.2]; decide)
  rw [sampleBatches, writeLog_cons, hput, hoffset, writeLog_cons, hdelete, writeLog, List.append_nil,
    List.length_append, physicalRecord_length, physicalRecord_length, hlengths.1, hlengths.2]
  rfl

theorem log_recovered_torn :
    inspectLevelDbLog ⟨"000003.log", (writeLog sampleChecksum 0 sampleBatches).take 30⟩ [107] {} =
      .ok (settled {} (lastOn [107] (operationsOf (batchesInside sampleChecksum 0
        ((writeLog sampleChecksum 0 sampleBatches).take 30).length sampleBatches)))) :=
  log_recovered sampleChecksum sampleBatches "000003.log" _ [107] {} (sampleLog_length.le.trans (by decide))
    (List.take_prefix 30 _)

end Logs

end EndstoneExchange.LevelDbRecovery
