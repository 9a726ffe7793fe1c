import EndstoneExchange.AsciiNumerals
import EndstoneExchange.ItemIdentity
import EndstoneExchange.LocalizedMessages

/-!
# What an item must be like

A player who offers too few items is told what the traded item is like: its name, its
enchantments, and a few of its other properties. Plain items need no such text.
-/
namespace EndstoneExchange.ItemRequirements
open ExchangeDomain NbtCodec ItemIdentity LocalizedMessages
open AsciiNumerals (ascii)

def maxTextLength : ℕ := 120
def maxListItems : ℕ := 8
def maxExtraLines : ℕ := 6
def maxDepth : ℕ := 8

/-- The text that bytes encode, and `std::format` of floating values. -/
structure TextFormats where
  text : Bytes → String
  float : UInt32 → String
  double : UInt64 → String

section Values
variable (formats : TextFormats) (language : Language)

def localized : String × String × String × String → String
  | (simplifiedChinese, english, traditionalChinese, japanese) =>
    match language with
    | .simplifiedChinese => simplifiedChinese
    | .english => english
    | .traditionalChinese => traditionalChinese
    | .japanese => japanese

def listSeparator : String := if language = .english then ", " else "、"

def descriptionSeparator : String :=
  if language = .english then "; " else if language = .japanese then "、" else "；"

def colon : String := if language = .english then ": " else "："

def join (values : List String) (separator : String) : String :=
  values.foldl (fun result value => (if result = "" then result else result ++ separator) ++ value) ""

/-- A cut does not fall inside a character. -/
def byteLimit (value : Bytes) : ℕ → ℕ
  | 0 => 0
  | limit + 1 =>
    if limit + 1 < value.length ∧ value.getD (limit + 1) 0 &&& 0xc0 = 0x80 then byteLimit value limit else limit + 1

def sanitizeText (value : Bytes) : String :=
  let limit := byteLimit value (min value.length maxTextLength)
  let kept := (value.take limit).map fun c =>
    if c = ascii '\r' ∨ c = ascii '\n' ∨ c = ascii '\t' then ascii ' ' else c
  if limit < value.length then formats.text kept ++ "…"
  else if kept = [] then messageText language .itemEmptyText
  else formats.text kept

def integerValue : Tag → Option ℤ
  | .byte value => some value.toNat
  | .short value => some value.toInt
  | .int value => some value.toInt
  | .long value => some value.toInt
  | _ => none

def enchantmentNames : List (String × String × String × String) :=
  [("保护", "Protection", "保護", "ダメージ軽減"), ("火焰保护", "Fire Protection", "火焰保護", "火炎耐性"),
    ("摔落缓冲", "Feather Falling", "摔落緩衝", "落下耐性"), ("爆炸保护", "Blast Protection", "爆炸保護", "爆発耐性"),
    ("弹射物保护", "Projectile Protection", "彈射物保護", "飛び道具耐性"), ("荆棘", "Thorns", "荊棘", "棘の鎧"),
    ("水下呼吸", "Respiration", "水下呼吸", "水中呼吸"), ("深海探索者", "Depth Strider", "深海漫遊者", "水中歩行"),
    ("水下速掘", "Aqua Affinity", "水下速掘", "水中採掘"), ("锋利", "Sharpness", "鋒利", "ダメージ増加"),
    ("亡灵杀手", "Smite", "不死剋星", "アンデッド特効"), ("节肢杀手", "Bane of Arthropods", "節肢剋星", "虫特効"),
    ("击退", "Knockback", "擊退", "ノックバック"), ("火焰附加", "Fire Aspect", "燃燒", "火属性"),
    ("抢夺", "Looting", "掠奪", "ドロップ増加"), ("效率", "Efficiency", "效率", "効率強化"),
    ("精准采集", "Silk Touch", "絲綢之觸", "シルクタッチ"), ("耐久", "Unbreaking", "耐久", "耐久力"), ("时运", "Fortune", "幸運", "幸運"),
    ("力量", "Power", "強力", "射撃ダメージ増加"), ("冲击", "Punch", "衝擊", "パンチ"), ("火矢", "Flame", "火焰", "フレイム"),
    ("无限", "Infinity", "無限", "無限"), ("海之眷顾", "Luck of the Sea", "海洋的祝福", "宝釣り"), ("饵钓", "Lure", "魚餌", "入れ食い"),
    ("冰霜行者", "Frost Walker", "冰霜行者", "氷渡り"), ("经验修补", "Mending", "修補", "修繕"),
    ("绑定诅咒", "Curse of Binding", "綁定詛咒", "束縛の呪い"), ("消失诅咒", "Curse of Vanishing", "消失詛咒", "消滅の呪い"),
    ("穿刺", "Impaling", "魚叉", "水生特効"), ("激流", "Riptide", "喚潮", "激流"), ("忠诚", "Loyalty", "忠誠", "忠誠"),
    ("引雷", "Channeling", "喚雷", "召雷"), ("多重箭", "Multishot", "多重射擊", "拡散"), ("穿透", "Piercing", "貫穿", "貫通"),
    ("快速装填", "Quick Charge", "快速裝填", "高速装填"), ("灵魂疾行", "Soul Speed", "靈魂疾走", "ソウルスピード"),
    ("迅捷潜行", "Swift Sneak", "迅捷潛行", "スニーク速度上昇"), ("风爆", "Wind Burst", "風爆", "ウィンドバースト"),
    ("致密", "Density", "緻密", "重撃"), ("破甲", "Breach", "破甲", "防具貫通"), ("突进", "Lunge", "突進", "突進")]

def enchantmentName (id : ℤ) : String :=
  match if 0 ≤ id then enchantmentNames[id.toNat]? else none with
  | some names => localized language names
  | none => tr language .unknownEnchantment [toString id]

def nbtNames : List (String × String × String × String × String) :=
  [("CanPlaceOn", "可放置在", "Can be placed on", "可放置在", "設置可能なブロック"),
    ("CanDestroy", "可破坏方块", "Can break blocks", "可破壞方塊", "破壊可能なブロック"),
    ("chargedItem", "弩中装填物品", "Loaded crossbow item", "弩中裝填物品", "クロスボウ装填物"),
    ("BlockEntityTag", "方块内容", "Block contents", "方塊內容", "ブロック内容"),
    ("EntityTag", "实体内容", "Entity contents", "實體內容", "エンティティ内容"),
    ("Trim", "盔甲纹饰", "Armor trim", "盔甲紋飾", "防具装飾"), ("Patterns", "旗帜图案", "Banner patterns", "旗幟圖案", "旗の模様"),
    ("Items", "内含物品", "Contained items", "內含物品", "内包アイテム"), ("pages", "书页", "Book pages", "書頁", "本のページ"),
    ("author", "作者", "Author", "作者", "著者"), ("title", "标题", "Title", "標題", "タイトル"),
    ("resolved", "书本已解析", "Book resolved", "書本已解析", "本の解決状態"), ("map_uuid", "地图编号", "Map ID", "地圖編號", "地図ID"),
    ("map_name_index", "地图名称编号", "Map name ID", "地圖名稱編號", "地図名ID"),
    ("customColor", "自定义颜色", "Custom color", "自訂顏色", "カスタム色"),
    ("PotionId", "药水编号", "Potion ID", "藥水編號", "ポーションID"), ("Name", "物品类型", "Item type", "物品類型", "アイテム種別"),
    ("Count", "数量", "Quantity", "數量", "数量"), ("Damage", "数据值", "Data value", "資料值", "データ値"),
    ("tag", "物品属性", "Item properties", "物品屬性", "アイテム属性"), ("id", "编号", "ID", "編號", "ID"),
    ("lvl", "等级", "Level", "等級", "レベル")]

def friendlyNbtKey (key : Bytes) : String :=
  match nbtNames.find? fun entry => entry.1.toList.map ascii = key with
  | some (_, names) => localized language names
  | none => formats.text key

/-- Containers have no scalar value; all others have a text. -/
def scalarValue : Tag → Option String
  | .empty => some (messageText language .itemEmpty)
  | .byte value => some (toString value.toNat)
  | .short value => some (toString value.toInt)
  | .int value => some (toString value.toInt)
  | .long value => some (toString value.toInt)
  | .float bits => some (formats.float bits)
  | .double bits => some (formats.double bits)
  | .string value => some (sanitizeText formats language value)
  | _ => none

/-- The first values of `count`, and the count where there are more. -/
def listedValues (shown : List String) (count : ℕ) : String :=
  let result := join shown (listSeparator language) ++
    if count > shown.length then tr language .itemCountSuffix [toString count] else ""
  if result = "" then messageText language .itemEmpty else result

def arrayValue (array : List ℤ) : String :=
  listedValues language ((array.take maxListItems).map toString) array.length

/-- The value of a list that shows no container. -/
def inlineListValue (list : List Tag) : Option String := do
  let shown ← (list.take maxListItems).mapM (scalarValue formats language)
  return listedValues language shown list.length

end Values

section Extras
variable (formats : TextFormats) (language : Language)

/-- The lines so far, and whether some were left out. -/
structure ExtraLines where
  lines : List String := []
  truncated : Bool := false

def ExtraLines.full (extra : ExtraLines) : Prop := extra.lines.length ≥ maxExtraLines

instance (extra : ExtraLines) : Decidable extra.full := inferInstanceAs (Decidable (_ ≥ _))

def ExtraLines.add (line : String) (extra : ExtraLines) : ExtraLines :=
  { extra with lines := extra.lines ++ [line] }

mutual

def appendExtraTag (path : String) (depth : ℕ) (extra : ExtraLines) (tag : Tag) : ExtraLines :=
  if extra.full then { extra with truncated := true }
  else if depth ≥ maxDepth then extra.add (tr language .itemDeepValue [path])
  else match tag with
  | .byteArray value => extra.add (path ++ colon language ++ arrayValue language (value.map fun b => (b.toNat : ℤ)))
  | .intArray value => extra.add (path ++ colon language ++ arrayValue language (value.map Int32.toInt))
  | .list value =>
    match inlineListValue formats language value with
    | some inline => extra.add (path ++ colon language ++ inline)
    | none =>
      if value.isEmpty then extra.add (path ++ colon language ++ messageText language .itemEmpty)
      else appendItems path 1 (depth + 1) extra value
  | .compound value =>
    if value.isEmpty then extra.add (path ++ colon language ++ messageText language .itemEmpty)
    else appendEntries (path ++ " · ") (depth + 1) extra value
  | tag =>
    match scalarValue formats language tag with
    | some scalar => extra.add (path ++ colon language ++ scalar)
    | none => extra

def appendItems (path : String) (index depth : ℕ) (extra : ExtraLines) : List Tag → ExtraLines
  | [] => extra
  | item :: items =>
    if extra.full then { extra with truncated := true }
    else appendItems path (index + 1) depth
      (appendExtraTag (tr language .itemListEntry [path, toString index]) depth extra item) items

def appendEntries (parent : String) (depth : ℕ) (extra : ExtraLines) : List (Bytes × Tag) → ExtraLines
  | [] => extra
  | (key, value) :: entries =>
    if extra.full then { extra with truncated := true }
    else appendEntries parent depth
      (appendExtraTag (parent ++ friendlyNbtKey formats language key) depth extra value) entries

end

theorem ExtraLines.add_length {extra : ExtraLines} (h : ¬ extra.full) (line : String) :
    (extra.add line).lines.length ≤ maxExtraLines := by
  have hroom : extra.lines.length < maxExtraLines := not_le.mp h
  rw [ExtraLines.add, List.length_append, List.length_singleton]
  exact hroom

mutual

theorem appendExtraTag_length (path : String) (depth : ℕ) {extra : ExtraLines}
    (h : extra.lines.length ≤ maxExtraLines) (tag : Tag) :
    (appendExtraTag formats language path depth extra tag).lines.length ≤ maxExtraLines := by
  rw [appendExtraTag.eq_def]
  split_ifs with hfull
  · exact h
  · exact ExtraLines.add_length hfull _
  · cases tag with
    | list value =>
      dsimp only
      split
      · exact ExtraLines.add_length hfull _
      · split_ifs
        · exact ExtraLines.add_length hfull _
        · exact appendItems_length path 1 (depth + 1) h value
    | compound value =>
      dsimp only
      split_ifs
      · exact ExtraLines.add_length hfull _
      · exact appendEntries_length _ (depth + 1) h value
    | _ => exact ExtraLines.add_length hfull _

theorem appendItems_length (path : String) (index depth : ℕ) {extra : ExtraLines}
    (h : extra.lines.length ≤ maxExtraLines) (items : List Tag) :
    (appendItems formats language path index depth extra items).lines.length ≤ maxExtraLines := by
  cases items with
  | nil => exact h
  | cons item items =>
    rw [appendItems]
    split_ifs
    · exact h
    · exact appendItems_length path (index + 1) depth (appendExtraTag_length _ depth h item) items

theorem appendEntries_length (parent : String) (depth : ℕ) {extra : ExtraLines}
    (h : extra.lines.length ≤ maxExtraLines) (entries : List (Bytes × Tag)) :
    (appendEntries formats language parent depth extra entries).lines.length ≤ maxExtraLines := by
  cases entries with
  | nil => exact h
  | cons entry entries =>
    obtain ⟨key, value⟩ := entry
    rw [appendEntries]
    split_ifs
    · exact h
    · exact appendEntries_length parent depth (appendExtraTag_length _ depth h value) entries

end

end Extras

section Requirements
variable (formats : TextFormats) (language : Language)

def key (name : String) : Bytes := name.toList.map ascii

def erase (name : String) (entries : Entries) : Entries := entries.filter fun entry => entry.1 ≠ key name

def lookup (name : String) (entries : Entries) : Option Tag := List.lookup (key name) entries

/-- Lines about a property, and the properties that are left. -/
abbrev Described := List String × Entries

def describeName (display : Entries) : Described :=
  match lookup "Name" display with
  | some (.string value) =>
    ([tr language .itemCustomName [sanitizeText formats language value ++ "§r"]], erase "Name" display)
  | _ => ([], display)

def loreText : Tag → Option String
  | .string value => some (sanitizeText formats language value ++ "§r")
  | _ => none

def describeLore (display : Entries) : Described :=
  match lookup "Lore" display with
  | some (.list list) =>
    match list.mapM (loreText formats language) with
    | some [] => ([], erase "Lore" display)
    | some lore => ([tr language .itemLore [join lore (descriptionSeparator language)]], erase "Lore" display)
    | none => ([], display)
  | _ => ([], display)

def describeDisplay (remaining : Entries) : Described :=
  match lookup "display" remaining with
  | some (.compound display) =>
    let (name, display) := describeName formats language display
    let (lore, display) := describeLore formats language display
    (name ++ lore, if display.isEmpty then erase "display" remaining
      else remaining.map fun entry => if entry.1 = key "display" then (entry.1, .compound display) else entry)
  | _ => ([], remaining)

/-- The id and the level, a number of 16 bits. -/
def enchantment : Tag → Option (ℤ × ℤ)
  | .compound entries => do
    let id ← (lookup "id" entries).bind integerValue
    let level ← (lookup "lvl" entries).bind integerValue
    if entries.length ≠ 2 then none else some (id, level % 65536)
  | _ => none

def describeEnchantments (remaining : Entries) : Described :=
  match lookup "ench" remaining with
  | some (.list list) =>
    match list.mapM enchantment with
    | some [] => ([], erase "ench" remaining)
    | some enchantments =>
      let sorted := enchantments.mergeSort fun a b => a.1 < b.1 ∨ a.1 = b.1 ∧ a.2 ≤ b.2
      let lines := sorted.map fun e => enchantmentName language e.1 ++ " " ++ toString e.2
      ([tr language .itemEnchantments [join lines (listSeparator language)]], erase "ench" remaining)
    | none => ([], remaining)
  | _ => ([], remaining)

/-- A number is told unless it is zero. -/
def describeNumber (name : String) (line : ℤ → String) (remaining : Entries) : Described :=
  match (lookup name remaining).bind integerValue with
  | some value => (if value ≠ 0 then [line value] else [], erase name remaining)
  | none => ([], remaining)

def otherLines (remaining : Entries) : List String :=
  let extra := appendEntries formats language "" 0 {} remaining
  if extra.lines.isEmpty then []
  else [messageText language .itemOtherHeader] ++ extra.lines.map ("- " ++ ·) ++
    if extra.truncated then [messageText language .itemOtherMany] else []

def requirementLines (data : ℤ) (nbt : Entries) : List String :=
  let (display, remaining) := describeDisplay formats language nbt
  let (enchantments, remaining) := describeEnchantments language remaining
  let (damage, remaining) :=
    describeNumber "Damage" (fun value => tr language .itemDurabilityDamage [toString value]) remaining
  let (repairCost, remaining) :=
    describeNumber "RepairCost" (fun value => tr language .itemRepairCost [toString value]) remaining
  let (unbreakable, remaining) :=
    describeNumber "Unbreakable" (fun _ => tr language .itemUnbreakable [messageText language .yesValue]) remaining
  (if data ≠ 0 then [tr language .itemData [toString data]] else []) ++ display ++ enchantments ++ damage ++
    repairCost ++ unbreakable ++ otherLines formats language remaining

def describeItemRequirements (types : TypeCodes) (prototype : ItemPrototype) : Except CodecError String := do
  let remaining ← expectedNbt types prototype
  return join (requirementLines formats language prototype.data remaining) "\n"

/-- However large the item's NBT is, the text has six lines of other properties at most, with a header
and a note that more are left out. -/
theorem otherLines_length (remaining : Entries) :
    (otherLines formats language remaining).length ≤ maxExtraLines + 2 := by
  have hempty : ({} : ExtraLines).lines.length ≤ maxExtraLines := Nat.zero_le _
  have hextra := appendEntries_length formats language "" 0 hempty remaining
  rw [otherLines]
  split_ifs
  · exact Nat.zero_le _
  · simpa using hextra
  · simp only [List.length_append, List.length_cons, List.length_nil, List.length_map]
    omega

/-- A plain item is not described. -/
theorem describeItemRequirements_plain (types : TypeCodes) {prototype : ItemPrototype} (hd : prototype.data = 0)
    (hn : prototype.nbt = []) : describeItemRequirements formats language types prototype = .ok "" := by
  rw [describeItemRequirements, expectedNbt, if_pos hn, hd]
  rfl

end Requirements

end EndstoneExchange.ItemRequirements
