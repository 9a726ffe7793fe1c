import Mathlib.Data.List.Basic

/-!
# The messages shown to players

The catalogue holds each message in four languages; a message's placeholders are
filled in order.
-/
namespace EndstoneExchange.LocalizedMessages

inductive Language where
  | simplifiedChinese | english | traditionalChinese | japanese
  deriving DecidableEq, Repr

/-- The messages of the trade forms, of funding from UMoney, of the sale of inventory items and of what such
items must be like. -/
inductive Message where
  | economyInsufficient | economyPlayerMissing | tradePointClosed | matchingOrderGone
  | invalidFormData | quantityRangeInvalid | priceRangeInvalid | quantityField | unitPriceField
  | wholeNumberRange | priceTooLarge | priceStep
  | itemEmptyText | itemEmpty | itemCountSuffix | itemDeepValue | itemListEntry | itemData | itemCustomName
  | itemLore | itemEnchantments | itemDurabilityDamage | itemRepairCost | itemUnbreakable | yesValue
  | itemOtherHeader | itemOtherMany | unknownEnchantment
  | receiptName | receiptLore | inventoryInsufficient
  deriving DecidableEq, Repr

def messageText : Language → Message → String
  | .simplifiedChinese, .economyInsufficient => "UMoney 余额不足。"
  | .english, .economyInsufficient => "Insufficient UMoney balance."
  | .traditionalChinese, .economyInsufficient => "UMoney 餘額不足。"
  | .japanese, .economyInsufficient => "UMoney 残高が不足しています。"
  | .simplifiedChinese, .economyPlayerMissing => "UMoney 中没有该玩家账户；请先加入服务器一次。"
  | .english, .economyPlayerMissing => "UMoney has no account for this player. Join the server once first."
  | .traditionalChinese, .economyPlayerMissing => "UMoney 中沒有該玩家帳戶；請先加入伺服器一次。"
  | .japanese, .economyPlayerMissing => "UMoney にこのプレイヤーの口座がありません。先に一度サーバーへ参加してください。"
  | .simplifiedChinese, .invalidFormData => "客户端返回了无效表单数据"
  | .english, .invalidFormData => "The client returned invalid form data"
  | .traditionalChinese, .invalidFormData => "客戶端返回了無效表單資料"
  | .japanese, .invalidFormData => "クライアントから無効なフォームデータが返されました"
  | .simplifiedChinese, .priceRangeInvalid => "交易价格超出允许范围，或不是整数"
  | .english, .priceRangeInvalid => "The trade price is outside the allowed range or is not a whole number"
  | .traditionalChinese, .priceRangeInvalid => "交易價格超出允許範圍，或不是整數"
  | .japanese, .priceRangeInvalid => "取引価格が許可範囲外、または整数ではありません"
  | .simplifiedChinese, .unitPriceField => "每件价格"
  | .english, .unitPriceField => "Price per item"
  | .traditionalChinese, .unitPriceField => "每件價格"
  | .japanese, .unitPriceField => "1個の価格"
  | .simplifiedChinese, .wholeNumberRange => "\x7b\x7d必须是 \x7b\x7d 至 \x7b\x7d 的整数"
  | .english, .wholeNumberRange => "\x7b\x7d must be a whole number from \x7b\x7d to \x7b\x7d"
  | .traditionalChinese, .wholeNumberRange => "\x7b\x7d必須是 \x7b\x7d 至 \x7b\x7d 的整數"
  | .japanese, .wholeNumberRange => "\x7b\x7dは \x7b\x7d～\x7b\x7d の整数で入力してください"
  | .simplifiedChinese, .priceTooLarge => "每件价格超出允许范围"
  | .english, .priceTooLarge => "The price per item is outside the allowed range"
  | .traditionalChinese, .priceTooLarge => "每件價格超出允許範圍"
  | .japanese, .priceTooLarge => "1個の価格が許可範囲を超えています"
  | .simplifiedChinese, .priceStep => "每件价格必须按 \x7b\x7du 调整"
  | .english, .priceStep => "The price per item must change in steps of \x7b\x7du"
  | .traditionalChinese, .priceStep => "每件價格必須按 \x7b\x7du 調整"
  | .japanese, .priceStep => "1個の価格は \x7b\x7du 単位で調整してください"
  | .simplifiedChinese, .quantityField => "数量"
  | .english, .quantityField => "Quantity"
  | .traditionalChinese, .quantityField => "數量"
  | .japanese, .quantityField => "数量"
  | .simplifiedChinese, .quantityRangeInvalid => "交易数量超出允许范围"
  | .english, .quantityRangeInvalid => "The trade quantity is outside the allowed range"
  | .traditionalChinese, .quantityRangeInvalid => "交易數量超出允許範圍"
  | .japanese, .quantityRangeInvalid => "取引数量が許可範囲を超えています"
  | .simplifiedChinese, .tradePointClosed => "这个交易点已经关闭。"
  | .english, .tradePointClosed => "This exchange point is closed."
  | .traditionalChinese, .tradePointClosed => "這個交易點已經關閉。"
  | .japanese, .tradePointClosed => "この取引地点は閉じられています。"
  | .simplifiedChinese, .matchingOrderGone => "对应的订单已经没有了，请重新选择交易方式。"
  | .english, .matchingOrderGone => "The matching orders are gone. Choose a trade method again."
  | .traditionalChinese, .matchingOrderGone => "對應的訂單已經沒有了，請重新選擇交易方式。"
  | .japanese, .matchingOrderGone => "対応する注文がなくなりました。取引方法を選び直してください。"
  | .simplifiedChinese, .itemEmptyText => "空文本"
  | .english, .itemEmptyText => "empty text"
  | .traditionalChinese, .itemEmptyText => "空文字"
  | .japanese, .itemEmptyText => "空のテキスト"
  | .simplifiedChinese, .itemEmpty => "空"
  | .english, .itemEmpty => "empty"
  | .traditionalChinese, .itemEmpty => "空"
  | .japanese, .itemEmpty => "空"
  | .simplifiedChinese, .itemCountSuffix => "，共 \x7b\x7d 项"
  | .english, .itemCountSuffix => ", \x7b\x7d entries total"
  | .traditionalChinese, .itemCountSuffix => "，共 \x7b\x7d 項"
  | .japanese, .itemCountSuffix => "、全 \x7b\x7d 項目"
  | .simplifiedChinese, .itemDeepValue => "\x7b\x7d：内容层级较深，请使用同来源物品"
  | .english, .itemDeepValue => "\x7b\x7d: nested data is deep; use an item from the same source"
  | .traditionalChinese, .itemDeepValue => "\x7b\x7d：內容層級較深，請使用同來源物品"
  | .japanese, .itemDeepValue => "\x7b\x7d：データ階層が深いため、同じ入手元のアイテムを使用してください"
  | .simplifiedChinese, .itemListEntry => "\x7b\x7d 第 \x7b\x7d 项"
  | .english, .itemListEntry => "\x7b\x7d entry \x7b\x7d"
  | .traditionalChinese, .itemListEntry => "\x7b\x7d 第 \x7b\x7d 項"
  | .japanese, .itemListEntry => "\x7b\x7d の第 \x7b\x7d 項目"
  | .simplifiedChinese, .itemData => "数据值：\x7b\x7d"
  | .english, .itemData => "Data value: \x7b\x7d"
  | .traditionalChinese, .itemData => "資料值：\x7b\x7d"
  | .japanese, .itemData => "データ値：\x7b\x7d"
  | .simplifiedChinese, .itemCustomName => "自定义名称：\x7b\x7d"
  | .english, .itemCustomName => "Custom name: \x7b\x7d"
  | .traditionalChinese, .itemCustomName => "自訂名稱：\x7b\x7d"
  | .japanese, .itemCustomName => "カスタム名：\x7b\x7d"
  | .simplifiedChinese, .itemLore => "物品说明：\x7b\x7d"
  | .english, .itemLore => "Description: \x7b\x7d"
  | .traditionalChinese, .itemLore => "物品說明：\x7b\x7d"
  | .japanese, .itemLore => "説明：\x7b\x7d"
  | .simplifiedChinese, .itemEnchantments => "附魔：\x7b\x7d"
  | .english, .itemEnchantments => "Enchantments: \x7b\x7d"
  | .traditionalChinese, .itemEnchantments => "附魔：\x7b\x7d"
  | .japanese, .itemEnchantments => "エンチャント：\x7b\x7d"
  | .simplifiedChinese, .itemDurabilityDamage => "耐久损耗：\x7b\x7d"
  | .english, .itemDurabilityDamage => "Durability damage: \x7b\x7d"
  | .traditionalChinese, .itemDurabilityDamage => "耐久損耗：\x7b\x7d"
  | .japanese, .itemDurabilityDamage => "耐久値の消耗：\x7b\x7d"
  | .simplifiedChinese, .itemRepairCost => "铁砧修复代价：\x7b\x7d"
  | .english, .itemRepairCost => "Anvil repair cost: \x7b\x7d"
  | .traditionalChinese, .itemRepairCost => "鐵砧修復代價：\x7b\x7d"
  | .japanese, .itemRepairCost => "金床修理コスト：\x7b\x7d"
  | .simplifiedChinese, .itemUnbreakable => "不会损坏：\x7b\x7d"
  | .english, .itemUnbreakable => "Unbreakable: \x7b\x7d"
  | .traditionalChinese, .itemUnbreakable => "不會損壞：\x7b\x7d"
  | .japanese, .itemUnbreakable => "破壊不能：\x7b\x7d"
  | .simplifiedChinese, .yesValue => "是"
  | .english, .yesValue => "yes"
  | .traditionalChinese, .yesValue => "是"
  | .japanese, .yesValue => "はい"
  | .simplifiedChinese, .itemOtherHeader => "其他属性："
  | .english, .itemOtherHeader => "Other properties:"
  | .traditionalChinese, .itemOtherHeader => "其他屬性："
  | .japanese, .itemOtherHeader => "その他の属性："
  | .simplifiedChinese, .itemOtherMany => "- 属性内容很多；未列出的部分也必须相同"
  | .english, .itemOtherMany => "- There are many properties; unlisted properties must also match"
  | .traditionalChinese, .itemOtherMany => "- 屬性內容很多；未列出的部分也必須相同"
  | .japanese, .itemOtherMany => "- 属性が多いため、表示されていない部分も同じである必要があります"
  | .simplifiedChinese, .unknownEnchantment => "未知附魔编号 \x7b\x7d"
  | .english, .unknownEnchantment => "Unknown enchantment ID \x7b\x7d"
  | .traditionalChinese, .unknownEnchantment => "未知附魔編號 \x7b\x7d"
  | .japanese, .unknownEnchantment => "不明なエンチャントID \x7b\x7d"
  | .simplifiedChinese, .receiptName => "§r交易暂存记录"
  | .english, .receiptName => "§rExchange recovery record"
  | .traditionalChinese, .receiptName => "§r交易暫存記錄"
  | .japanese, .receiptName => "§r取引復元記録"
  | .simplifiedChinese, .receiptLore => "§7请勿移动；系统将自动回收"
  | .english, .receiptLore => "§7Do not move; the system will recover it automatically"
  | .traditionalChinese, .receiptLore => "§7請勿移動；系統將自動回收"
  | .japanese, .receiptLore => "§7移動しないでください。システムが自動的に回収します"
  | .simplifiedChinese, .inventoryInsufficient =>
    "背包中有 \x7b\x7d 件 \x7b\x7d。符合出售要求的有 \x7b\x7d 件，本次需要 \x7b\x7d 件。\x7b\x7d"
  | .english, .inventoryInsufficient =>
    "Your inventory contains \x7b\x7d \x7b\x7d item(s). \x7b\x7d match the selling requirements; \x7b\x7d are needed.\x7b\x7d"
  | .traditionalChinese, .inventoryInsufficient =>
    "背包中有 \x7b\x7d 件 \x7b\x7d。符合出售要求的有 \x7b\x7d 件，本次需要 \x7b\x7d 件。\x7b\x7d"
  | .japanese, .inventoryInsufficient =>
    "インベントリには \x7b\x7d 個の \x7b\x7d があります。販売条件に合うものは \x7b\x7d 個で、今回は \x7b\x7d 個必要です。\x7b\x7d"

/-- `std::vformat` on texts whose placeholders are all plain. -/
def vformat : List Char → List String → String
  | '\x7b' :: '\x7d' :: rest, arg :: args => arg ++ vformat rest args
  | c :: rest, args => c.toString ++ vformat rest args
  | [], _ => ""

def tr (language : Language) (message : Message) (args : List String) : String :=
  vformat (messageText language message).toList args

example : tr .english .wholeNumberRange ["Price per item", "1", "5000"] =
    "Price per item must be a whole number from 1 to 5000" := by decide

/-- What the trade forms throw: an error with a text for the player, or one for the log. -/
inductive Thrown where
  | userError (what : String)
  | runtimeError (what : String)
  deriving DecidableEq, Repr

end EndstoneExchange.LocalizedMessages
