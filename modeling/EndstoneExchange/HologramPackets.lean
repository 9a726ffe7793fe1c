import EndstoneExchange.SelfDelimitingReaders
import Mathlib.Tactic.NormNum

/-!
# Hologram packets

The packet that tells a client how a hologram looks: the entity, its metadata with the name in the
language of the client, and two empty lists of properties. A client reads back what was written.
-/
namespace EndstoneExchange.HologramPackets
open SelfDelimitingReaders

abbrev Bytes := List UInt8

section Payload

def entityDataName : ℕ := 4
def entityDataScale : ℕ := 38
def entityDataWidth : ℕ := 53
def entityDataHeight : ℕ := 54
def entityDataAlwaysShowNameTag : ℕ := 81
def entityDataTypeByte : ℕ := 0
def entityDataTypeFloat : ℕ := 3
def entityDataTypeString : ℕ := 4

/-- The bits of `0.01F`. -/
def hologramScale : ℕ := 0x3c23d70a

def appendVarUint (value : ℕ) : Bytes :=
  if value < 128 then [UInt8.ofNat value] else UInt8.ofNat (value % 128 + 128) :: appendVarUint (value / 128)

/-- A float is its bits, the lowest byte first. -/
def appendFloat (bits : ℕ) : Bytes := [0, 8, 16, 24].map fun shift => UInt8.ofNat (bits / 2 ^ shift % 256)

def appendString (value : Bytes) : Bytes := appendVarUint value.length ++ value

def appendFloatMetadata (key bits : ℕ) : Bytes :=
  appendVarUint key ++ appendVarUint entityDataTypeFloat ++ appendFloat bits

def hologramAppearancePacket (runtimeId : ℕ) (nameTag : Option Bytes) : Bytes :=
  appendVarUint runtimeId ++ appendVarUint (if nameTag.isSome then 5 else 4) ++
    (match nameTag with
      | some name => appendVarUint entityDataName ++ appendVarUint entityDataTypeString ++ appendString name
      | none => []) ++
    appendFloatMetadata entityDataScale hologramScale ++ appendFloatMetadata entityDataWidth 0 ++
    appendFloatMetadata entityDataHeight 0 ++ appendVarUint entityDataAlwaysShowNameTag ++
    appendVarUint entityDataTypeByte ++ [1] ++ appendVarUint 0 ++ appendVarUint 0 ++ appendVarUint 0

end Payload

section Client

abbrev PacketReader (α : Type) := Reader UInt8 Unit α

inductive Metadata where
  | byte (value : UInt8)
  | float (bits : ℕ)
  | string (value : Bytes)
  deriving DecidableEq, Repr

structure Appearance where
  runtimeId : ℕ
  metadata : List (ℕ × Metadata)
  tick : ℕ
  deriving DecidableEq, Repr

def readByte : PacketReader UInt8 := do
  let bytes ← take () 1
  return bytes.headD 0

/-- At most `rounds` groups of seven bits. -/
def readGroups : ℕ → PacketReader ℕ
  | 0 => throw ()
  | rounds + 1 => do
    let byte ← readByte
    if byte.toNat < 128 then return byte.toNat
    else do
      let high ← readGroups rounds
      return byte.toNat % 128 + 128 * high

/-- `readVarUint` of the tests. The value has 64 bits, of which the tenth group fills one. -/
def readVarUint : PacketReader ℕ := do
  let value ← readGroups 10
  return value % 2 ^ 64

/-- `readLittleFloat`. -/
def readLittleFloat : PacketReader ℕ := do
  let bytes ← take () 4
  return bytes.foldr (fun byte bits => byte.toNat + 256 * bits) 0

/-- `readProtocolString`. -/
def readProtocolString : PacketReader Bytes := do
  let size ← readVarUint
  take () size

def readValue (type : ℕ) : PacketReader Metadata :=
  if type = entityDataTypeByte then do return .byte (← readByte)
  else if type = entityDataTypeFloat then do return .float (← readLittleFloat)
  else if type = entityDataTypeString then do return .string (← readProtocolString)
  else throw ()

def readEntry : PacketReader (ℕ × Metadata) := do
  let key ← readVarUint
  let type ← readVarUint
  let value ← readValue type
  return (key, value)

/-- A list that the packet leaves empty. -/
def readNone : PacketReader Unit := do
  let size ← readVarUint
  if size = 0 then return () else throw ()

def readAppearance : PacketReader Appearance := do
  let runtimeId ← readVarUint
  let count ← readVarUint
  let metadata ← times count readEntry
  readNone
  readNone
  let tick ← readVarUint
  return { runtimeId, metadata, tick }

end Client

section RoundTrip
variable {room : ℕ}

theorem byte_frames (byte : UInt8) : Frames room () readByte [byte] byte := (take_frames [byte]).map (·.headD 0)

/-- Induction on the groups; every one but the last is marked. -/
theorem groups_frames {rounds value : ℕ} (hpos : 0 < rounds) (h : value < 128 ^ rounds) :
    Frames room () (readGroups rounds) (appendVarUint value) value := by
  induction rounds generalizing value with
  | zero => exact absurd hpos (lt_irrefl 0)
  | succ rounds ih =>
    rw [appendVarUint]
    split_ifs with hsmall
    · have hbyte : (UInt8.ofNat value).toNat = value := by
        rw [UInt8.toNat_ofNat', Nat.mod_eq_of_lt (by omega)]
      change Frames room () _ ([UInt8.ofNat value] ++ []) value
      refine (byte_frames (UInt8.ofNat value)).bind ?_
      rw [hbyte, if_pos hsmall]
      exact frames_pure value
    · have hbyte : (UInt8.ofNat (value % 128 + 128)).toNat = value % 128 + 128 := by
        rw [UInt8.toNat_ofNat', Nat.mod_eq_of_lt (by omega)]
      have hmore : 0 < rounds := by
        rcases Nat.eq_zero_or_pos rounds with rfl | hmore
        · rw [zero_add, pow_one] at h
          exact absurd h hsmall
        · exact hmore
      have hhigh : value / 128 < 128 ^ rounds := by
        rw [pow_succ] at h
        exact Nat.div_lt_of_lt_mul (by rwa [mul_comm] at h)
      have hvalue : (value % 128 + 128) % 128 + 128 * (value / 128) = value := by omega
      refine (byte_frames (UInt8.ofNat (value % 128 + 128))).bind ?_
      rw [hbyte, if_neg (by omega)]
      have hrest := (ih hmore hhigh).map fun high => (value % 128 + 128) % 128 + 128 * high
      rwa [hvalue] at hrest

theorem varUint_frames {value : ℕ} (h : value < 2 ^ 64) : Frames room () readVarUint (appendVarUint value) value := by
  have hread := (@groups_frames room 10 value (by decide) (h.trans_le (by norm_num))).map (· % 2 ^ 64)
  rwa [Nat.mod_eq_of_lt h] at hread

private theorem float_frames {bits : ℕ} (h : bits < 2 ^ 32) :
    Frames room () readLittleFloat (appendFloat bits) bits := by
  have hread := (@take_frames _ _ room () (appendFloat bits)).map
    fun bytes => bytes.foldr (fun byte bits => byte.toNat + 256 * bits) 0
  have hbits : (appendFloat bits).foldr (fun byte bits => byte.toNat + 256 * bits) 0 = bits := by
    simp only [appendFloat, List.map_cons, List.map_nil, List.foldr_cons, List.foldr_nil, UInt8.toNat_ofNat']
    omega
  rwa [hbits] at hread

theorem string_frames {value : Bytes} (h : value.length < 2 ^ 64) :
    Frames room () readProtocolString (appendString value) value :=
  (varUint_frames h).bind (take_frames value)

theorem entry_frames {key type : ℕ} {code : Bytes} {value : Metadata} (hkey : key < 2 ^ 64) (htype : type < 2 ^ 64)
    (h : Frames room () (readValue type) code value) :
    Frames room () readEntry (appendVarUint key ++ (appendVarUint type ++ code)) (key, value) :=
  (varUint_frames hkey).bind ((varUint_frames htype).bind (h.map (key, ·)))

theorem floatMetadata_frames {key bits : ℕ} (hkey : key < 2 ^ 64) (h : bits < 2 ^ 32) :
    Frames room () readEntry (appendFloatMetadata key bits) (key, .float bits) := by
  rw [appendFloatMetadata, List.append_assoc]
  exact entry_frames hkey (by decide) ((float_frames h).map Metadata.float)

theorem none_frames : Frames room () readNone (appendVarUint 0) () := by
  have hread : Frames room () readNone (appendVarUint 0 ++ []) () := by
    refine (varUint_frames (by decide)).bind ?_
    rw [if_pos rfl]
    exact frames_pure ()
  rwa [List.append_nil] at hread

/-- What the packet is to tell. -/
def appearance (runtimeId : ℕ) (nameTag : Option Bytes) : Appearance where
  runtimeId
  metadata := (nameTag.toList.map fun name => (entityDataName, .string name)) ++
    [(entityDataScale, .float hologramScale), (entityDataWidth, .float 0), (entityDataHeight, .float 0),
      (entityDataAlwaysShowNameTag, .byte 1)]
  tick := 0

theorem packet_frames {runtimeId : ℕ} {nameTag : Option Bytes} (hid : runtimeId < 2 ^ 64)
    (hname : ∀ name ∈ nameTag, name.length < 2 ^ 64) :
    Frames room () readAppearance (hologramAppearancePacket runtimeId nameTag) (appearance runtimeId nameTag) := by
  have hrest : ∀ metadata : List (ℕ × Metadata), Frames room () (do
      readNone
      readNone
      let tick ← readVarUint
      return ({ runtimeId, metadata, tick } : Appearance)) (appendVarUint 0 ++ (appendVarUint 0 ++ appendVarUint 0))
      { runtimeId, metadata, tick := 0 } := fun metadata =>
    none_frames.bind (none_frames.bind ((@varUint_frames room 0 (by decide)).map (Appearance.mk runtimeId metadata)))
  have hshown : Frames room () readEntry
      (appendVarUint entityDataAlwaysShowNameTag ++ (appendVarUint entityDataTypeByte ++ [1]))
      (entityDataAlwaysShowNameTag, .byte 1) := entry_frames (by decide) (by decide) ((byte_frames 1).map Metadata.byte)
  have hfloats : Frames room () (times 4 readEntry) _ _ :=
    (@floatMetadata_frames room entityDataScale hologramScale (by decide) (by decide)).cons
      ((@floatMetadata_frames room entityDataWidth 0 (by decide) (by decide)).cons
        ((@floatMetadata_frames room entityDataHeight 0 (by decide) (by decide)).cons
          (hshown.cons (frames_pure []))))
  cases nameTag with
  | none =>
    have hpacket : Frames room () readAppearance _ (appearance runtimeId none) :=
      (varUint_frames hid).bind ((@varUint_frames room 4 (by decide)).bind (hfloats.bind (hrest _)))
    simpa only [hologramAppearancePacket, appearance, Option.isSome_none, Bool.false_eq_true, if_false,
      List.append_assoc,
      List.append_nil, List.nil_append, Option.toList_none, List.map_nil] using hpacket
  | some name =>
    have hentry : Frames room () readEntry
        (appendVarUint entityDataName ++ (appendVarUint entityDataTypeString ++ appendString name))
        (entityDataName, .string name) :=
      entry_frames (by decide) (by decide) ((string_frames (hname name rfl)).map Metadata.string)
    have hpacket : Frames room () readAppearance _ (appearance runtimeId (some name)) :=
      (varUint_frames hid).bind ((@varUint_frames room 5 (by decide)).bind ((hentry.cons hfloats).bind (hrest _)))
    simpa only [hologramAppearancePacket, appearance, Option.isSome_some, if_true, List.append_assoc,
      List.append_nil, List.nil_append, Option.toList_some, List.map_cons, List.map_nil, List.cons_append] using hpacket

private theorem appearance_inj {runtimeId runtimeId' : ℕ} {nameTag nameTag' : Option Bytes}
    (h : appearance runtimeId nameTag = appearance runtimeId' nameTag') :
    runtimeId = runtimeId' ∧ nameTag = nameTag' := by
  refine ⟨congrArg Appearance.runtimeId h, ?_⟩
  have hmetadata := List.append_cancel_right (congrArg Appearance.metadata h)
  cases nameTag with
  | none =>
    cases nameTag' with
    | none => rfl
    | some name' => cases hmetadata
  | some name =>
    cases nameTag' with
    | none => cases hmetadata
    | some name' => cases hmetadata; rfl

/-- A client reads exactly what was written and leaves the rest, refuses a packet that was cut off,
and takes no two appearances for one. -/
theorem packet_round_trip {runtimeId : ℕ} {nameTag : Option Bytes} (hid : runtimeId < 2 ^ 64)
    (hname : ∀ name ∈ nameTag, name.length < 2 ^ 64) :
    (∀ rest, readAppearance.run (hologramAppearancePacket runtimeId nameTag ++ rest) =
        .ok (appearance runtimeId nameTag, rest)) ∧
      (∀ part, part <+: hologramAppearancePacket runtimeId nameTag → part ≠ hologramAppearancePacket runtimeId nameTag →
        readAppearance.run part = .error ()) ∧
      ∀ runtimeId' nameTag', runtimeId' < 2 ^ 64 → (∀ name ∈ nameTag', name.length < 2 ^ 64) →
        hologramAppearancePacket runtimeId' nameTag' = hologramAppearancePacket runtimeId nameTag →
        runtimeId' = runtimeId ∧ nameTag' = nameTag := by
  have hwhole : ∀ {id tag} (rest : Bytes), id < 2 ^ 64 → (∀ name ∈ tag, name.length < 2 ^ 64) →
      readAppearance.run (hologramAppearancePacket id tag ++ rest) = .ok (appearance id tag, rest) :=
    fun rest hid hname => (packet_frames hid hname).whole rest (Nat.lt_succ_self _)
  refine ⟨fun rest => hwhole rest hid hname, fun part hpart hne =>
    (packet_frames hid hname).cut part hpart hne (Nat.lt_succ_self _), fun id tag hid' hname' heq => ?_⟩
  have hread := hwhole [] hid' hname'
  rw [heq, hwhole [] hid hname] at hread
  obtain ⟨hids, htags⟩ := appearance_inj (Prod.mk.inj (Except.ok.inj hread)).1
  exact ⟨hids.symm, htags.symm⟩

/-- `10u x 5`. -/
def sampleName : Bytes := [49, 48, 117, 32, 120, 32, 53]

theorem packet_round_trip_named :
    (∀ rest, readAppearance.run (hologramAppearancePacket 301 (some sampleName) ++ rest) =
        .ok (appearance 301 (some sampleName), rest)) ∧
      (∀ part, part <+: hologramAppearancePacket 301 (some sampleName) →
        part ≠ hologramAppearancePacket 301 (some sampleName) → readAppearance.run part = .error ()) ∧
      ∀ runtimeId' nameTag', runtimeId' < 2 ^ 64 → (∀ name ∈ nameTag', name.length < 2 ^ 64) →
        hologramAppearancePacket runtimeId' nameTag' = hologramAppearancePacket 301 (some sampleName) →
        runtimeId' = 301 ∧ nameTag' = some sampleName :=
  packet_round_trip (by decide) fun name hname => by cases hname; decide

end RoundTrip

end EndstoneExchange.HologramPackets
