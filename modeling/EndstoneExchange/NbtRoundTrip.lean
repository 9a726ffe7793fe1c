import EndstoneExchange.NbtCodec
import Mathlib.Data.List.Induction

/-!
# The NBT codec loses nothing

Each reader frames what its writer wrote. An encoded compound is read back whole,
and neither a part of it nor anything beyond it is accepted.
-/
namespace EndstoneExchange.NbtRoundTrip
open SelfDelimitingReaders NbtCodec

variable {types : TypeCodes} {room : ℕ}

@[simp]
theorem integral_length (size raw : ℕ) : (Writer.integral size raw).length = size := by
  induction size generalizing raw with
  | zero => rfl
  | succ size ih => simp [Writer.integral, ih]

theorem ofBytes_integral {size raw : ℕ} (h : raw < 256 ^ size) :
    Reader.ofBytes (Writer.integral size raw) = raw := by
  induction size generalizing raw with
  | zero =>
    have hraw : raw = 0 := by simpa using h
    rw [hraw]
    rfl
  | succ size ih =>
    have hlt : raw / 256 < 256 ^ size := by
      rw [pow_succ] at h
      exact Nat.div_lt_of_lt_mul (by rwa [mul_comm] at h)
    have hdigit : (UInt8.ofNat raw).toNat = raw % 256 := UInt8.toNat_ofNat'
    rw [Writer.integral, Reader.ofBytes, ih hlt, hdigit]
    omega

theorem integral_frames {size raw : ℕ} (h : raw < 256 ^ size) :
    Frames room truncated (Reader.integral size) (Writer.integral size raw) raw := by
  have htake : Frames room truncated (take truncated size) (Writer.integral size raw)
      (Writer.integral size raw) := by
    have := (@take_frames _ _ room truncated) (Writer.integral size raw)
    rwa [integral_length] at this
  have hread := htake.map Reader.ofBytes
  rwa [ofBytes_integral h] at hread

theorem length_frames {size : ℕ} (h : size ≤ limit) :
    Frames room truncated Reader.length (Writer.integral 4 size) size := by
  have hsmall : size < 256 ^ 4 := lt_of_le_of_lt h (by decide)
  have hread : Frames room truncated Reader.length (Writer.integral 4 size ++ []) size := by
    refine (integral_frames hsmall).bind ?_
    rw [if_neg (not_lt.mpr h)]
    exact frames_pure size
  rwa [List.append_nil] at hread

theorem string_frames {value : Bytes} (h : value.length ≤ limit) :
    Frames room truncated Reader.string (Writer.integral 4 value.length ++ value) value :=
  (length_frames h).bind (take_frames value)

theorem string_written {value : Bytes} (h : value.length ≤ limit) :
    Writer.string value = .ok (Writer.integral 4 value.length ++ value) := by
  have hsmall : ¬ value.length > 2 ^ 32 - 1 := by
    have : limit ≤ 2 ^ 32 - 1 := by decide
    omega
  rw [Writer.string, if_neg hsmall]
  rfl

private theorem ints_frames (value : List Int32) :
    Frames room truncated
      (times value.length do
        let raw ← Reader.integral 4
        return (UInt32.ofNat raw).toInt32)
      (value.flatMap fun item => Writer.integral 4 item.toUInt32.toNat) value := by
  induction value with
  | nil => exact frames_pure []
  | cons item value ih =>
    have hitem := ((@integral_frames room 4 item.toUInt32.toNat) item.toUInt32.toNat_lt).map
        fun raw => (UInt32.ofNat raw).toInt32
    simp only [UInt32.ofNat_toNat, Int32.toInt32_toUInt32] at hitem
    exact hitem.cons ih

private theorem insertOrAssign_last {key : Bytes} {item : Tag} {entries : Entries}
    (h : ∀ e ∈ entries, e.1 < key) :
    Reader.insertOrAssign key item entries = entries ++ [(key, item)] := by
  induction entries with
  | nil => rfl
  | cons e entries ih =>
    have hlt : e.1 < key := h e List.mem_cons_self
    have hrest := ih fun e' he' => h e' (List.mem_cons_of_mem e he')
    rw [Reader.insertOrAssign, if_pos hlt, hrest]
    rfl

private theorem ofEntries_sorted {entries : Entries} (h : Sorted entries) :
    Reader.ofEntries entries = entries := by
  induction entries using List.reverseRecOn with
  | nil => rfl
  | append_singleton entries e ih =>
    obtain ⟨hsorted, -, hlast⟩ := List.pairwise_append.mp h
    have hlt : ∀ e' ∈ entries, e'.1 < e.1 :=
      fun e' he' => hlast e' he' e (List.mem_singleton.mpr rfl)
    have hinit : Reader.ofEntries entries = entries := ih hsorted
    rw [Reader.ofEntries] at hinit ⊢
    rw [List.foldl_append, hinit]
    exact insertOrAssign_last hlt

/-- A tag is read in less room than its input: its type takes the first byte. -/
theorem tag_frames {tag : Tag} {written : Bytes}
    (h : ∀ room, Frames room truncated (Reader.payload (Reader.tag types room) tag.type) written tag)
    (room : ℕ) :
    Frames room truncated (Reader.tag types room) (Writer.typed types tag written) tag := by
  cases room with
  | zero =>
    constructor
    · intro rest hlt
      exact absurd hlt (Nat.not_lt_zero _)
    · intro p _ _ hlt
      exact absurd hlt (Nat.not_lt_zero _)
  | succ room =>
    have htype : Frames (room + 1) truncated (Reader.integral 1)
        (Writer.integral 1 (types.code tag.type).toNat) (types.code tag.type).toNat :=
      integral_frames (UInt8.toNat_lt _)
    refine htype.bind_left ?_
    rw [UInt8.ofNat_toNat, TypeCodes.typeOf_code, integral_length]
    exact h room

mutual

theorem payload_frames (tag : Tag) (hk : tag.Everywhere Tag.Keyed) (hw : tag.Everywhere Tag.Within) :
    ∃ written, Writer.payload types tag = .ok written ∧ ∀ room,
      Frames room truncated (Reader.payload (Reader.tag types room) tag.type) written tag := by
  cases tag with
  | empty => exact ⟨_, rfl, fun _ => frames_pure _⟩
  | byte value =>
    refine ⟨_, rfl, fun room => ?_⟩
    have h := ((@integral_frames room 1) value.toNat_lt).map fun raw =>
      Tag.byte (UInt8.ofNat raw)
    rwa [UInt8.ofNat_toNat] at h
  | short value =>
    refine ⟨_, rfl, fun room => ?_⟩
    have h := ((@integral_frames room 2) value.toUInt16.toNat_lt).map fun raw =>
      Tag.short (UInt16.ofNat raw).toInt16
    rwa [UInt16.ofNat_toNat, Int16.toInt16_toUInt16] at h
  | int value =>
    refine ⟨_, rfl, fun room => ?_⟩
    have h := ((@integral_frames room 4) value.toUInt32.toNat_lt).map fun raw =>
      Tag.int (UInt32.ofNat raw).toInt32
    rwa [UInt32.ofNat_toNat, Int32.toInt32_toUInt32] at h
  | long value =>
    refine ⟨_, rfl, fun room => ?_⟩
    have h := ((@integral_frames room 8) value.toUInt64.toNat_lt).map fun raw =>
      Tag.long (UInt64.ofNat raw).toInt64
    rwa [UInt64.ofNat_toNat, Int64.toInt64_toUInt64] at h
  | float bits =>
    refine ⟨_, rfl, fun room => ?_⟩
    have h := ((@integral_frames room 4) bits.toNat_lt).map fun raw =>
      Tag.float (UInt32.ofNat raw)
    rwa [UInt32.ofNat_toNat] at h
  | double bits =>
    refine ⟨_, rfl, fun room => ?_⟩
    have h := ((@integral_frames room 8) bits.toNat_lt).map fun raw =>
      Tag.double (UInt64.ofNat raw)
    rwa [UInt64.ofNat_toNat] at h
  | string value => exact ⟨_, string_written hw, fun _ => (string_frames hw).map Tag.string⟩
  | byteArray value => exact ⟨_, rfl, fun _ => (string_frames hw).map Tag.byteArray⟩
  | intArray value =>
    exact ⟨_, rfl, fun _ => (length_frames hw).bind ((ints_frames value).map Tag.intArray)⟩
  | list value =>
    obtain ⟨written, hwritten, hread⟩ := items_frames value hk.2 hw.2
    refine ⟨_, by rw [Writer.payload, hwritten]; rfl, fun room => ?_⟩
    exact (length_frames hw.1).bind ((hread room).map Tag.list)
  | compound value =>
    obtain ⟨written, hwritten, hread⟩ := entries_frames value hk.2 hw.1.2 hw.2
    refine ⟨_, by rw [Writer.payload, hwritten]; rfl, fun room => ?_⟩
    have h := (hread room).map fun value => Tag.compound (Reader.ofEntries value)
    rw [ofEntries_sorted hk.1] at h
    exact (length_frames hw.1.1).bind h

theorem items_frames (items : List Tag) (hk : EverywhereList Tag.Keyed items)
    (hw : EverywhereList Tag.Within items) :
    ∃ written, Writer.items types items = .ok written ∧ ∀ room,
      Frames room truncated (times items.length (Reader.tag types room)) written items := by
  cases items with
  | nil => exact ⟨_, rfl, fun _ => frames_pure []⟩
  | cons item items =>
    obtain ⟨first, hfirst, hread⟩ := payload_frames item hk.1 hw.1
    obtain ⟨others, hothers, hreads⟩ := items_frames items hk.2 hw.2
    refine ⟨_, by rw [Writer.items, hfirst, hothers]; rfl, fun room => ?_⟩
    exact (tag_frames hread room).cons (hreads room)

theorem entries_frames (entries : Entries) (hk : EverywhereEntries Tag.Keyed entries)
    (hn : ∀ e ∈ entries, e.1.length ≤ limit) (hw : EverywhereEntries Tag.Within entries) :
    ∃ written, Writer.entries types entries = .ok written ∧ ∀ room,
      Frames room truncated (times entries.length (Reader.entry (Reader.tag types room))) written
        entries := by
  cases entries with
  | nil => exact ⟨_, rfl, fun _ => frames_pure []⟩
  | cons entry entries =>
    obtain ⟨key, item⟩ := entry
    obtain ⟨first, hfirst, hread⟩ := payload_frames item hk.1 hw.1
    obtain ⟨others, hothers, hreads⟩ :=
      entries_frames entries hk.2 (fun e he => hn e (List.mem_cons_of_mem _ he)) hw.2
    have hkey : key.length ≤ limit := hn (key, item) List.mem_cons_self
    refine ⟨_, by rw [Writer.entries, string_written hkey, hfirst, hothers]; rfl, fun room => ?_⟩
    have hentry : Frames room truncated (Reader.entry (Reader.tag types room)) _ (key, item) :=
      (string_frames hkey).bind ((tag_frames hread room).map (Prod.mk key))
    exact hentry.cons (hreads room)

end

private theorem expect_frames (bytes : Bytes) :
    Frames room truncated (Reader.expect bytes)
      (bytes.flatMap fun byte => Writer.integral 1 byte.toNat) ⟨⟩ := by
  induction bytes with
  | nil => exact frames_pure PUnit.unit
  | cons byte bytes ih =>
    refine ((@integral_frames _ 1) byte.toNat_lt).bind ?_
    rw [if_neg (not_not.mpr rfl)]
    exact ih

/-- What is encoded is framed, header included. -/
theorem encode_frames (t : CompoundTag) (hw : t.Within) :
    ∃ bytes, encode types t = .ok bytes ∧ bytes ≠ [] ∧ ∀ room,
      Frames room truncated (Reader.root types room) bytes (.compound t.entries) := by
  obtain ⟨written, hwritten, hread⟩ := (@payload_frames types) (.compound t.entries) t.keyed hw
  refine ⟨_, by rw [encode, Writer.tag, hwritten]; rfl, List.cons_ne_nil _ _, fun room => ?_⟩
  exact (expect_frames header).bind (tag_frames hread room)

section Framed
variable {bytes : Bytes} {entries : Entries}
  (h : ∀ room, Frames room truncated (Reader.root types room) bytes (.compound entries))
include h

theorem decode_whole (hne : bytes ≠ []) (rest : Bytes) :
    decode types (bytes ++ rest) = if rest = [] then .ok entries else .error invalidRoot := by
  have hread := (h ((bytes ++ rest).length + 1)).whole rest (Nat.lt_succ_self _)
  have hinput : bytes ++ rest ≠ [] := List.append_ne_nil_of_left_ne_nil hne rest
  rw [decode, if_neg hinput, hread]
  rfl

private theorem decode_cut {p : Bytes} (hp : p <+: bytes) (hcut : p ≠ bytes) (hne : p ≠ []) :
    decode types p = .error truncated := by
  rw [decode, if_neg hne, (h (p.length + 1)).cut p hp hcut (Nat.lt_succ_self _)]
  rfl

end Framed

private theorem encode_injective {t u : CompoundTag} {bytes : Bytes} (ht : t.Within) (hu : u.Within)
    (hbytes : encode types t = .ok bytes) (hsame : encode types u = .ok bytes) : u = t := by
  obtain ⟨bytes', hbytes', hne, hread⟩ := (@encode_frames types) t ht
  obtain ⟨bytes'', hbytes'', -, hread'⟩ := (@encode_frames types) u hu
  obtain rfl : bytes' = bytes := Except.ok.inj (hbytes'.symm.trans hbytes)
  obtain rfl : bytes'' = bytes' := Except.ok.inj (hbytes''.symm.trans hsame)
  have hdecode := decode_whole hread hne []
  have hdecode' := decode_whole hread' hne []
  exact CompoundTag.ext (Except.ok.inj (hdecode'.symm.trans hdecode))

/-- Decoding an encoded compound returns it, a part of the bytes is truncated and
anything after them is rejected. -/
theorem nbt_round_trip (types : TypeCodes) (t : CompoundTag) (hw : t.Within) :
    ∃ bytes, encode types t = .ok bytes ∧ decode types bytes = .ok t.entries ∧
      (∀ u : CompoundTag, u.Within → encode types u = .ok bytes → u = t) ∧
      (∀ p, p <+: bytes → p ≠ bytes → p ≠ [] → decode types p = .error truncated) ∧
      ∀ rest, rest ≠ [] → decode types (bytes ++ rest) = .error invalidRoot := by
  obtain ⟨bytes, hbytes, hne, hread⟩ := (@encode_frames types) t hw
  refine ⟨bytes, hbytes, ?_, ?_, ?_, ?_⟩
  · have h := decode_whole hread hne []
    rwa [List.append_nil] at h
  · intro u hu hsame
    exact encode_injective hw hu hbytes hsame
  · intro p hp hcut hpne
    exact decode_cut hread hp hcut hpne
  · intro rest hrest
    rw [decode_whole hread hne rest, if_neg hrest]

def standardTypes : TypeCodes where
  code
    | .empty => 0
    | .byte => 1
    | .short => 2
    | .int => 3
    | .long => 4
    | .float => 5
    | .double => 6
    | .byteArray => 7
    | .string => 8
    | .list => 9
    | .compound => 10
    | .intArray => 11
  injective := by
    intro a b h
    cases a <;> cases b <;> first | rfl | exact absurd h (by decide)

/-- Two keyed entries, the second a list of longs. -/
def sample : CompoundTag where
  entries := [([97], .short (-1234)), ([98], .list [.long 10, .long (-20)])]
  keyed := by
    have hkeys : ([97] : Bytes) < [98] := by decide
    simp [Tag.Everywhere, EverywhereEntries, EverywhereList, Tag.Keyed, Sorted, hkeys]

theorem sample_within : sample.Within := by
  simp [sample, CompoundTag.Within, Tag.Everywhere, EverywhereEntries, EverywhereList, Tag.Within,
    limit]

theorem nbt_round_trip_sample : sample.Within ∧ ∃ bytes, encode standardTypes sample = .ok bytes ∧
    decode standardTypes bytes = .ok sample.entries ∧
    (∀ u : CompoundTag, u.Within → encode standardTypes u = .ok bytes → u = sample) ∧
    (∀ p, p <+: bytes → p ≠ bytes → p ≠ [] → decode standardTypes p = .error truncated) ∧
    ∀ rest, rest ≠ [] → decode standardTypes (bytes ++ rest) = .error invalidRoot :=
  ⟨sample_within, nbt_round_trip standardTypes sample sample_within⟩

end EndstoneExchange.NbtRoundTrip
