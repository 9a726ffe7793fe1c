import EndstoneExchange.MatchingRefinement
import EndstoneExchange.PriceTimeMatching

/-!
# The matching loops walk the resting orders

Each of the two loops trades exactly what the walk by price and time takes, and
it returns as long as no account outgrows BIGINT.
-/
namespace EndstoneExchange.MatchingWalk
open AutoIncrementTables KeyedTables AtomicTransactions.Transaction ExchangeDomain ExchangeTransactions
  OrderMatching ClearingSteps MatchingRefinement PriceTimeMatching

/-- The price and the quantity a resting order offers. -/
def listedPrice (e : Id × OrderRow) : Cents := e.2.priceCents
def listedQuantity (e : Id × OrderRow) : ℤ := e.2.remainingQty

/-- Only a market order of `placeBuy` has a budget. -/
def askBudget (request : OrderRequest) (p : Progress) : Option ℤ :=
  if request.type = .market then some p.availableBalance else none

/-- What a loop did to the trades and to the resting orders it was given. -/
structure Walked (db db' : Db) (trade : (Id × OrderRow) × ℤ → TradeRow)
    (fills : List ((Id × OrderRow) × ℤ)) : Prop where
  trades : db'.trades.rows = db.trades.rows ++ fills.map trade
  rows : ∀ f ∈ fills, ∃ o, db'.orders.get? f.1.1 = some o ∧ o.remainingQty = f.1.2.remainingQty - f.2
  others : ∀ i, (∀ f ∈ fills, f.1.1 ≠ i) → db'.orders.get? i = db.orders.get? i

variable {db db₁ db' : Db} {request : OrderRequest} {orderId : Id} {p p' : Progress}
  {trade : (Id × OrderRow) × ℤ → TradeRow} {es : List (Id × OrderRow)}
  {fills : List ((Id × OrderRow) × ℤ)}

theorem Walked.nil : Walked db db trade [] :=
  ⟨(List.append_nil _).symm, fun _ h => by simp at h, fun _ _ => rfl⟩

theorem Walked.cons {e : Id × OrderRow} {q : ℤ} {g : OrderRow → OrderRow}
    (hrow : db.orders.get? e.1 = some e.2) (hg : (g e.2).remainingQty = e.2.remainingQty - q)
    (ht : db₁.trades = db.trades.insert (trade (e, q))) (ho : db₁.orders = db.orders.update e.1 g)
    (hkey : ∀ f ∈ fills, f.1.1 ≠ e.1) (h : Walked db₁ db' trade fills) :
    Walked db db' trade ((e, q) :: fills) := by
  refine ⟨?_, fun f hf => ?_, fun i hi => ?_⟩
  · rw [h.trades, ht]
    simp [Table.insert]
  · rcases List.mem_cons.mp hf with rfl | hf
    · refine ⟨g e.2, ?_, hg⟩
      rw [h.others _ hkey, ho, Table.get?_update_self, hrow, Option.map_some]
    · exact h.rows f hf
  · have hne : i ≠ e.1 := fun he => hi (e, q) (List.mem_cons_self ..) he.symm
    rw [h.others i fun f hf => hi f (List.mem_cons_of_mem _ hf), ho, Table.get?_update_ne _ _ hne]

/-- A walk never comes back to an order. -/
theorem walk_keys {e : Id × OrderRow} {n : ℤ} {budget : Option ℤ} (h : e.1 ∉ es.map Prod.fst) :
    ∀ f ∈ walk listedPrice listedQuantity es n budget, f.1.1 ≠ e.1 := fun _ hf he =>
  h (he ▸ List.mem_map_of_mem (walk_fill hf).1)

/-- A step of the walk without a budget. -/
theorem walk_unlimited {e : Id × OrderRow} {n : ℤ} (h0 : n ≠ 0) (hpos : 0 < min n e.2.remainingQty)
    (es : List (Id × OrderRow)) :
    walk listedPrice listedQuantity (e :: es) n none = (e, min n e.2.remainingQty) ::
      walk listedPrice listedQuantity es (n - min n e.2.remainingQty) none := by
  have hgo : ¬ (n = 0 ∨ min n e.2.remainingQty ≤ 0) := not_or.mpr ⟨h0, not_le.mpr hpos⟩
  simp only [walk, affordable, listedQuantity, hgo, if_false, spend, Option.map_none]

section Buying

/-- The source divides toward zero, the reference rounds down; they differ only below zero. -/
theorem tdiv_affordable {b price : ℤ} (hp : 0 < price) :
    (b.tdiv price ≤ 0 ↔ b / price ≤ 0) ∧ (0 < b.tdiv price → b.tdiv price = b / price) := by
  rcases lt_or_ge b 0 with hb | hb
  · have htdiv : b.tdiv price ≤ 0 := by
      have hneg : 0 ≤ (-b).tdiv price := Int.tdiv_nonneg (by omega) hp.le
      rw [Int.neg_tdiv] at hneg
      omega
    have hdiv : b / price ≤ 0 := Int.ediv_nonpos_of_nonpos_of_neg hb.le hp
    exact ⟨iff_of_true htdiv hdiv, fun h => absurd htdiv (not_le.mpr h)⟩
  · rw [Int.tdiv_eq_ediv_of_nonneg hb]
    exact ⟨Iff.rfl, fun _ => rfl⟩

theorem askFill_affordable {e : Id × OrderRow} (hp : 0 < e.2.priceCents) :
    (askFill request e.2 p ≤ 0 ↔ affordable (listedPrice e) (askBudget request p)
      (min p.remaining (listedQuantity e)) ≤ 0) ∧
    (0 < askFill request e.2 p → askFill request e.2 p = affordable (listedPrice e)
      (askBudget request p) (min p.remaining (listedQuantity e))) := by
  obtain ⟨hstop, hsame⟩ := tdiv_affordable (b := p.availableBalance) hp
  cases ht : request.type with
  | limit => simp [askFill, ht, askBudget, affordable, listedQuantity]
  | market =>
    simp only [askFill, ht, askBudget, affordable, listedQuantity, listedPrice, if_true, min_le_iff,
      lt_min_iff]
    refine ⟨or_congr_right hstop, fun h => ?_⟩
    rw [hsame h.2]

private theorem askBudget_next {e : Id × OrderRow} (q : ℤ) :
    askBudget request (afterAsk request e.2 q p) = spend (listedPrice e) q (askBudget request p) := by
  cases ht : request.type with
  | limit => simp [askBudget, ht, spend]
  | market => simp [askBudget, ht, spend, afterAsk, buyerDelta, newOrder, listedPrice, sub_eq_add_neg]

/-- A step of the walk that takes from an ask. -/
theorem walk_ask {e : Id × OrderRow} (hp : 0 < e.2.priceCents) (hne : p.remaining ≠ 0)
    (hpos : 0 < askFill request e.2 p) (es : List (Id × OrderRow)) :
    walk listedPrice listedQuantity (e :: es) p.remaining (askBudget request p) =
      (e, askFill request e.2 p) :: walk listedPrice listedQuantity es
        (afterAsk request e.2 (askFill request e.2 p) p).remaining
        (askBudget request (afterAsk request e.2 (askFill request e.2 p) p)) := by
  obtain ⟨hstop, hsame⟩ := (@askFill_affordable request) (p := p) hp
  have hgo : ¬ (p.remaining = 0 ∨ affordable (listedPrice e) (askBudget request p)
      (min p.remaining (listedQuantity e)) ≤ 0) :=
    not_or.mpr ⟨hne, fun hle => absurd (hstop.mpr hle) (not_le.mpr hpos)⟩
  rw [askBudget_next, hsame hpos]
  simp only [walk, hgo, if_false, afterAsk]

/-- The loop and the walk end at the same ask. -/
theorem walk_ask_done {e : Id × OrderRow} (hp : 0 < e.2.priceCents)
    (h : p.remaining = 0 ∨ askFill request e.2 p ≤ 0) :
    walk listedPrice listedQuantity (e :: es) p.remaining (askBudget request p) = [] := by
  simp only [walk, h.imp_right ((@askFill_affordable request) (p := p) hp).1.mp, if_true]

theorem matchAsks_walk (h : matchAsks request orderId es p db = .ok (p', db'))
    (hprice : ∀ e ∈ es, 0 < e.2.priceCents) (hkeys : (es.map Prod.fst).Nodup)
    (hrow : ∀ e ∈ es, db.orders.get? e.1 = some e.2) :
    Walked db db' (fun f => askTrade request orderId f.1.1 f.1.2 f.2)
      (walk listedPrice listedQuantity es p.remaining (askBudget request p)) := by
  induction es generalizing p db with
  | nil =>
    obtain ⟨-, rfl⟩ := Prod.mk.inj (pure_ok.mp h)
    exact .nil
  | cons e es ih =>
    simp only [matchAsks, ite_ok, bind_ok, pure_ok, Prod.mk.injEq] at h
    rcases h with ⟨h0, -, rfl⟩ | ⟨hne, ⟨hm, -, rfl⟩ | ⟨-, ⟨p₁, db₁⟩, htake, hrest⟩⟩
    · rw [walk_ask_done (hprice e (List.mem_cons_self ..)) (.inl h0)]
      exact .nil
    · rw [walk_ask_done (hprice e (List.mem_cons_self ..)) (.inr hm.2)]
      exact .nil
    · obtain ⟨-, hpos, -, -, -, hr⟩ := takeAsk_ok.mp htake
      obtain ⟨rfl, rfl⟩ := Prod.mk.inj hr
      obtain ⟨hkey, hkeys'⟩ := List.nodup_cons.mp (hkeys : (e.1 :: es.map Prod.fst).Nodup)
      rw [walk_ask (hprice e (List.mem_cons_self ..)) hne hpos]
      refine Walked.cons (hrow e (List.mem_cons_self ..)) rfl rfl rfl (walk_keys hkey) (ih hrest
        (fun a ha => hprice a (List.mem_cons_of_mem _ ha)) hkeys' fun a ha => ?_)
      have hne' : a.1 ≠ e.1 := fun heq => hkey (heq ▸ List.mem_map_of_mem ha)
      have horders : (Db.askTaken db request orderId e.1 e.2 (askFill request e.2 p)).orders =
        db.orders.update e.1 (restingAfter (e.2.remainingQty - askFill request e.2 p)) := rfl
      rw [horders, Table.get?_update_ne _ _ hne']
      exact hrow a (List.mem_cons_of_mem _ ha)

end Buying

section Selling

theorem matchBids_walk (h : matchBids request orderId es p db = .ok (p', db'))
    (hkeys : (es.map Prod.fst).Nodup) (hrow : ∀ e ∈ es, db.orders.get? e.1 = some e.2) :
    Walked db db' (fun f => bidTrade request orderId f.1.1 f.1.2 f.2)
      (walk listedPrice listedQuantity es p.remaining none) := by
  induction es generalizing p db with
  | nil =>
    obtain ⟨-, rfl⟩ := Prod.mk.inj (pure_ok.mp h)
    exact .nil
  | cons e es ih =>
    simp only [matchBids, ite_ok, bind_ok, pure_ok, Prod.mk.injEq] at h
    rcases h with ⟨h0, -, rfl⟩ | ⟨hne, ⟨p₁, db₁⟩, htake, hrest⟩
    · simp only [walk, h0, true_or, if_true]
      exact .nil
    · obtain ⟨-, hpos, -, -, -, hr⟩ := takeBid_ok.mp htake
      obtain ⟨rfl, rfl⟩ := Prod.mk.inj hr
      obtain ⟨hkey, hkeys'⟩ := List.nodup_cons.mp (hkeys : (e.1 :: es.map Prod.fst).Nodup)
      rw [walk_unlimited hne hpos]
      refine Walked.cons (hrow e (List.mem_cons_self ..)) rfl rfl rfl (walk_keys hkey) (ih hrest hkeys'
        fun a ha => ?_)
      have hne' : a.1 ≠ e.1 := fun heq => hkey (heq ▸ List.mem_map_of_mem ha)
      have horders : ∃ g, (Db.bidTaken db request orderId e.1 e.2
        (min p.remaining e.2.remainingQty)).orders = db.orders.update e.1 g := ⟨_, rfl⟩
      obtain ⟨g, hg⟩ := horders
      rw [hg, Table.get?_update_ne _ _ hne']
      exact hrow a (List.mem_cons_of_mem _ ha)

end Selling
/-! ### Neither loop raises while there is room for the money that moves -/
section Returning

/-- An account that can still gain `v`. -/
def HasRoom (db : Db) (playerUuid : String) (v : Cents) : Prop :=
  ∃ a, db.accounts.find? playerUuid = some a ∧ a.balanceCents + v ≤ maxCents

theorem HasRoom.mono {playerUuid : String} {v w : Cents} (h : HasRoom db playerUuid v) (hw : w ≤ v) :
    HasRoom db playerUuid w := by
  obtain ⟨a, ha, hv⟩ := h
  exact ⟨a, ha, by linarith⟩

theorem HasRoom.creditable {playerUuid : String} {v : Cents} (h : HasRoom db playerUuid v) (h0 : 0 ≤ v) :
    Creditable db playerUuid v := ⟨h0, fun _ => h⟩

/-- A credit uses up room of its own account only. -/
theorem HasRoom.post {playerUuid other : String} {delta v : Cents} {reason : LedgerReason}
    {reference : Option LedgerReference} (h : HasRoom db other (delta + v)) (hd : 0 ≤ delta) :
    HasRoom (Db.post db playerUuid delta reason reference) other v := by
  obtain ⟨a, ha, hv⟩ := h
  rw [HasRoom, find?_post, ha]
  by_cases ho : other = playerUuid
  · exact ⟨_, by rw [if_pos ho, Option.map_some], by simp only; linarith⟩
  · exact ⟨a, by rw [if_neg ho], by linarith⟩

theorem HasRoom.post_ne {playerUuid other : String} {delta v : Cents} {reason : LedgerReason}
    {reference : Option LedgerReference} (h : HasRoom db other v) (hne : other ≠ playerUuid) :
    HasRoom (Db.post db playerUuid delta reason reference) other v := by
  rw [HasRoom, find?_post, if_neg hne]
  exact h

/-- What a player's own orders earn. -/
def proceeds (playerUuid : String) (fills : List ((Id × OrderRow) × ℤ)) : Cents :=
  value listedPrice (fills.filter fun f => f.1.2.playerUuid = playerUuid)

theorem proceeds_cons (playerUuid : String) (e : Id × OrderRow) (q : ℤ) :
    proceeds playerUuid ((e, q) :: fills) =
      (if e.2.playerUuid = playerUuid then e.2.priceCents * q else 0) + proceeds playerUuid fills := by
  unfold proceeds
  by_cases h : e.2.playerUuid = playerUuid
  · simp [h, listedPrice]
  · simp [h]

theorem proceeds_nonneg {playerUuid : String} (h : ∀ f ∈ fills, 0 ≤ f.1.2.priceCents * f.2) :
    0 ≤ proceeds playerUuid fills := by
  refine List.sum_nonneg fun c hc => ?_
  obtain ⟨f, hf, rfl⟩ := List.mem_map.mp hc
  exact h f (List.mem_of_mem_filter hf)

theorem proceeds_le {playerUuid : String} (h : ∀ f ∈ fills, 0 ≤ f.1.2.priceCents * f.2) :
    proceeds playerUuid fills ≤ value listedPrice fills := by
  induction fills with
  | nil => exact le_rfl
  | cons f fills ih =>
    obtain ⟨e, q⟩ := f
    have hq := h (e, q) (List.mem_cons_self ..)
    have hrest := ih fun f hf => h f (List.mem_cons_of_mem _ hf)
    have hlisted : listedPrice e * q = e.2.priceCents * q := rfl
    rw [proceeds_cons, value_cons, hlisted]
    split_ifs <;> linarith

theorem walk_paid_nonneg {n : ℤ} {budget : Option ℤ} (h : ∀ e ∈ es, 0 < e.2.priceCents) :
    ∀ f ∈ walk listedPrice listedQuantity es n budget, 0 ≤ f.1.2.priceCents * f.2 := fun f hf =>
  mul_nonneg (h f.1 (walk_fill hf).1).le (walk_fill hf).2.1.le

/-- The asks `es` can be taken from as far as the walk goes. -/
structure Purchasable (db : Db) (request : OrderRequest) (es : List (Id × OrderRow)) (p : Progress) :
    Prop where
  asks : ∀ e ∈ es, 0 < e.2.priceCents ∧ 0 < e.2.remainingQty ∧ e.2.playerUuid ≠ request.playerUuid
  within : request.type = .limit → ∀ e ∈ es, e.2.priceCents ≤ request.priceCents
  remaining : 0 ≤ p.remaining
  buyer : ∃ a, db.accounts.find? request.playerUuid = some a ∧ a.balanceCents = p.availableBalance
  available : 0 ≤ p.availableBalance
  refundable : request.type = .limit →
    0 ≤ request.priceCents ∧ p.availableBalance + request.priceCents * p.remaining ≤ maxCents
  cost : value listedPrice (walk listedPrice listedQuantity es p.remaining (askBudget request p)) ≤ maxCents
  sellers : ∀ e ∈ es, HasRoom db e.2.playerUuid
    (value listedPrice (walk listedPrice listedQuantity es p.remaining (askBudget request p)))

/-- The asks `es` can be taken from as far as the walk goes, with room for what each
seller gets. -/
structure Payable (db : Db) (request : OrderRequest) (es : List (Id × OrderRow)) (p : Progress) :
    Prop where
  asks : ∀ e ∈ es, 0 < e.2.priceCents ∧ 0 < e.2.remainingQty ∧ e.2.playerUuid ≠ request.playerUuid
  within : request.type = .limit → ∀ e ∈ es, e.2.priceCents ≤ request.priceCents
  remaining : 0 ≤ p.remaining
  buyer : ∃ a, db.accounts.find? request.playerUuid = some a ∧ a.balanceCents = p.availableBalance
  available : 0 ≤ p.availableBalance
  refundable : request.type = .limit →
    0 ≤ request.priceCents ∧ p.availableBalance + request.priceCents * p.remaining ≤ maxCents
  cost : value listedPrice (walk listedPrice listedQuantity es p.remaining (askBudget request p)) ≤ maxCents
  sellers : ∀ e ∈ es, HasRoom db e.2.playerUuid (proceeds e.2.playerUuid
    (walk listedPrice listedQuantity es p.remaining (askBudget request p)))

theorem Purchasable.payable (h : Purchasable db request es p) : Payable db request es p :=
  ⟨h.asks, h.within, h.remaining, h.buyer, h.available, h.refundable, h.cost, fun e he =>
    (h.sellers e he).mono (proceeds_le (walk_paid_nonneg fun e he => (h.asks e he).1))⟩

/-- The bids `es` can be taken from as far as the walk goes. -/
structure Sellable (db : Db) (request : OrderRequest) (es : List (Id × OrderRow)) (p : Progress) :
    Prop where
  bids : ∀ e ∈ es, 0 < e.2.priceCents ∧ 0 < e.2.remainingQty ∧
    e.2.reservedCents = e.2.priceCents * e.2.remainingQty
  remaining : 0 ≤ p.remaining
  cost : value listedPrice (walk listedPrice listedQuantity es p.remaining none) ≤ maxCents
  seller : HasRoom db request.playerUuid
    (value listedPrice (walk listedPrice listedQuantity es p.remaining none))

theorem walk_value_nonneg {n : ℤ} {budget : Option ℤ} (h : ∀ e ∈ es, 0 < e.2.priceCents) :
    0 ≤ value listedPrice (walk listedPrice listedQuantity es n budget) :=
  value_walk_nonneg fun e he => (h e he).le

/-- What is left of a buyer's money after a trade, and of a limit order's refunds. -/
theorem Payable.paid {e : Id × OrderRow} (h : Payable db request (e :: es) p)
    (hpos : 0 < askFill request e.2 p) :
    BuyerCovers db request e.2.priceCents (askFill request e.2 p) ∧
      0 ≤ (afterAsk request e.2 (askFill request e.2 p) p).availableBalance ∧
      (request.type = .limit → 0 ≤ request.priceCents ∧
        (afterAsk request e.2 (askFill request e.2 p) p).availableBalance +
          request.priceCents * (p.remaining - askFill request e.2 p) ≤ maxCents) := by
  obtain ⟨a, ha, hbalance⟩ := h.buyer
  obtain ⟨hprice, -, -⟩ := h.asks e (List.mem_cons_self ..)
  have hle := (askFill_le request e.2 p).1
  have hav := h.available
  generalize hq : askFill request e.2 p = q at hpos hle
  have hcost : 0 ≤ e.2.priceCents * q := mul_nonneg hprice.le hpos.le
  cases ht : request.type with
  | market =>
    have hafford : e.2.priceCents * q ≤ p.availableBalance := by
      simp only [askFill, ht] at hq
      have hdiv : q ≤ p.availableBalance / e.2.priceCents := by
        rw [← Int.tdiv_eq_ediv_of_nonneg hav]
        omega
      rw [mul_comm]
      exact (Int.le_ediv_iff_mul_le hprice).mp hdiv
    have hnext : (afterAsk request e.2 q p).availableBalance =
        p.availableBalance - e.2.priceCents * q := by
      simp [afterAsk, buyerDelta, newOrder, ht, sub_eq_add_neg]
    refine ⟨?_, by linarith, fun h => by simp at h⟩
    simp only [BuyerCovers, ht]
    exact ⟨hcost, fun _ => ⟨a, ha, by linarith⟩⟩
  | limit =>
    obtain ⟨hrp, hrefund⟩ := h.refundable ht
    have hwithin := h.within ht e (List.mem_cons_self ..)
    have hdelta : 0 ≤ (request.priceCents - e.2.priceCents) * q :=
      mul_nonneg (sub_nonneg.mpr hwithin) hpos.le
    have hsplit : (request.priceCents - e.2.priceCents) * q =
        request.priceCents * q - e.2.priceCents * q := sub_mul _ _ _
    have hkept : request.priceCents * (p.remaining - q) =
        request.priceCents * p.remaining - request.priceCents * q := mul_sub _ _ _
    have hkept0 : 0 ≤ request.priceCents * (p.remaining - q) :=
      mul_nonneg hrp (sub_nonneg.mpr hle)
    have hnext : (afterAsk request e.2 q p).availableBalance =
        p.availableBalance + (request.priceCents - e.2.priceCents) * q := by
      simp [afterAsk, buyerDelta, newOrder, ht]
    refine ⟨?_, by linarith, fun _ => ⟨hrp, by linarith⟩⟩
    simp only [BuyerCovers, ht]
    exact ⟨hwithin, by linarith, hdelta, fun _ => ⟨a, ha, by linarith⟩⟩

/-- A buyer's balance after a trade with another player. -/
theorem askTaken_buyer {e : Id × OrderRow} {q : ℤ} {a : AccountRow}
    (hne : e.2.playerUuid ≠ request.playerUuid) (ha : db.accounts.find? request.playerUuid = some a) :
    (Db.askTaken db request orderId e.1 e.2 q).accounts.find? request.playerUuid = some { a with
      balanceCents := a.balanceCents + buyerDelta (newOrder request 0) e.2.priceCents q } := by
  have hbuyer : (Db.buyerPaid db request orderId e.2.priceCents q).accounts.find?
      request.playerUuid = _ := find?_post _ _ _ _ _ _
  rw [if_pos rfl, ha, Option.map_some] at hbuyer
  have hseller := find?_post (Db.setOrder (Db.buyerPaid db request orderId e.2.priceCents q) e.1
    (restingAfter (e.2.remainingQty - q))) e.2.playerUuid (e.2.priceCents * q) .tradeProceeds
      (some (.order e.1)) request.playerUuid
  rw [if_neg hne.symm] at hseller
  exact hseller.trans hbuyer

theorem Payable.matched (h : Payable db request es p) :
    ∃ r, matchAsks request orderId es p db = .ok r := by
  induction es generalizing p db with
  | nil => exact ⟨_, pure_ok.mpr rfl⟩
  | cons e es ih =>
    by_cases h0 : p.remaining = 0
    · exact ⟨_, ite_ok.mpr (.inl ⟨h0, pure_ok.mpr rfl⟩)⟩
    by_cases hstop : request.type = .market ∧ askFill request e.2 p ≤ 0
    · exact ⟨_, ite_ok.mpr (.inr ⟨h0, ite_ok.mpr (.inl ⟨hstop, pure_ok.mpr rfl⟩)⟩)⟩
    obtain ⟨hprice, hquantity, hstranger⟩ := h.asks e (List.mem_cons_self ..)
    have hpos : 0 < askFill request e.2 p := by
      have hrem := h.remaining
      cases ht : request.type with
      | market => exact not_le.mp fun hle => hstop ⟨ht, hle⟩
      | limit =>
        simp only [askFill, ht]
        omega
    obtain ⟨hcovers, hleft, hrefund⟩ := h.paid hpos
    obtain ⟨a, ha, hbalance⟩ := h.buyer
    have hle := (askFill_le request e.2 p).1
    have hcost := h.cost
    have hroom := h.sellers
    have hasks : ∀ a ∈ es, 0 < a.2.priceCents := fun a ha => (h.asks a (List.mem_cons_of_mem _ ha)).1
    have hrest : 0 ≤ value listedPrice (walk listedPrice listedQuantity es
        (afterAsk request e.2 (askFill request e.2 p) p).remaining
        (askBudget request (afterAsk request e.2 (askFill request e.2 p) p))) := walk_value_nonneg hasks
    have hearned : 0 ≤ proceeds e.2.playerUuid (walk listedPrice listedQuantity es
        (afterAsk request e.2 (askFill request e.2 p) p).remaining
        (askBudget request (afterAsk request e.2 (askFill request e.2 p) p))) :=
      proceeds_nonneg (walk_paid_nonneg hasks)
    rw [walk_ask hprice h0 hpos] at hcost hroom
    rw [value_cons] at hcost
    generalize hq : askFill request e.2 p = q at *
    have hpaid : 0 ≤ e.2.priceCents * q := mul_nonneg hprice.le hpos.le
    have hlisted : listedPrice e * q = e.2.priceCents * q := rfl
    rw [hlisted] at hcost
    have hown := hroom e (List.mem_cons_self ..)
    rw [proceeds_cons, if_pos rfl] at hown
    have hcredit : Creditable (Db.buyerPaid db request orderId e.2.priceCents q) e.2.playerUuid
        (e.2.priceCents * q) := ((hown.mono (by linarith)).post_ne hstranger).creditable hpaid
    have htake : takeAsk request orderId e.1 e.2 q p db =
        .ok (afterAsk request e.2 q p, Db.askTaken db request orderId e.1 e.2 q) :=
      takeAsk_ok.mpr ⟨hprice, hpos, by linarith, hcovers, hcredit, rfl⟩
    have hnext : Payable (Db.askTaken db request orderId e.1 e.2 q) request es
        (afterAsk request e.2 q p) := by
      refine ⟨fun a ha => h.asks a (List.mem_cons_of_mem _ ha),
        fun ht a ha => h.within ht a (List.mem_cons_of_mem _ ha), sub_nonneg.mpr hle, ?_, hleft,
        hrefund, by linarith, fun a ha => ?_⟩
      · exact ⟨_, askTaken_buyer hstranger ha, by simp only [hbalance, afterAsk]⟩
      · have hother := @HasRoom.post_ne _ _ _ (buyerDelta (newOrder request 0) e.2.priceCents q) _
          (buyerReason (newOrder request 0)) (some (.order orderId)) (hroom a (List.mem_cons_of_mem _ ha))
          (h.asks a (List.mem_cons_of_mem _ ha)).2.2
        rw [proceeds_cons] at hother
        by_cases hsame : e.2.playerUuid = a.2.playerUuid
        · rw [if_pos hsame] at hother
          exact @HasRoom.post (Db.setOrder (Db.buyerPaid db request orderId e.2.priceCents q) e.1
            (restingAfter (e.2.remainingQty - q))) e.2.playerUuid _ _ _ .tradeProceeds (some (.order e.1))
            hother hpaid
        · rw [if_neg hsame, zero_add] at hother
          exact @HasRoom.post_ne (Db.setOrder (Db.buyerPaid db request orderId e.2.priceCents q) e.1
            (restingAfter (e.2.remainingQty - q))) e.2.playerUuid _ _ _ .tradeProceeds (some (.order e.1))
            hother (Ne.symm hsame)
    obtain ⟨r, hr⟩ := ih hnext
    rw [← hq] at htake hstop
    exact ⟨r, ite_ok.mpr (.inr ⟨h0, ite_ok.mpr (.inr ⟨hstop, bind_ok.mpr ⟨_, htake, hq ▸ hr⟩⟩)⟩)⟩

theorem matchAsks_returns (h : Purchasable db request es p) :
    ∃ r, matchAsks request orderId es p db = .ok r := h.payable.matched

/-- The progress of a buyer's loop and the money that its walk moved. -/
structure Progressed (db db' : Db) (request : OrderRequest) (p p' : Progress)
    (fills : List ((Id × OrderRow) × ℤ)) : Prop where
  remaining : p'.remaining = p.remaining - units fills
  filledTotal : p'.filledTotal = p.filledTotal + units fills
  gross : p'.gross = p.gross + value listedPrice fills
  account : ∀ a, db.accounts.find? request.playerUuid = some a → ∃ a',
    db'.accounts.find? request.playerUuid = some a' ∧ a'.balanceCents = a.balanceCents +
      (fills.map fun f => buyerDelta (newOrder request 0) f.1.2.priceCents f.2).sum

theorem Progressed.nil : Progressed db db request p p [] :=
  ⟨by simp, by simp, by simp, fun a ha => ⟨a, ha, by simp⟩⟩

theorem matchAsks_progressed (h : matchAsks request orderId es p db = .ok (p', db'))
    (hes : ∀ e ∈ es, 0 < e.2.priceCents ∧ e.2.playerUuid ≠ request.playerUuid) :
    Progressed db db' request p p'
      (walk listedPrice listedQuantity es p.remaining (askBudget request p)) := by
  induction es generalizing p db with
  | nil =>
    obtain ⟨rfl, rfl⟩ := Prod.mk.inj (pure_ok.mp h)
    exact .nil
  | cons e es ih =>
    obtain ⟨hprice, hstranger⟩ := hes e (List.mem_cons_self ..)
    simp only [matchAsks, ite_ok, bind_ok, pure_ok, Prod.mk.injEq] at h
    rcases h with ⟨h0, rfl, rfl⟩ | ⟨hne, ⟨hm, rfl, rfl⟩ | ⟨-, ⟨p₁, db₁⟩, htake, hrest⟩⟩
    · rw [walk_ask_done hprice (.inl h0)]
      exact .nil
    · rw [walk_ask_done hprice (.inr hm.2)]
      exact .nil
    · obtain ⟨-, hpos, -, -, -, hr⟩ := takeAsk_ok.mp htake
      obtain ⟨rfl, rfl⟩ := Prod.mk.inj hr
      have hnext := ih hrest fun a ha => hes a (List.mem_cons_of_mem _ ha)
      rw [walk_ask hprice hne hpos]
      generalize askFill request e.2 p = q at *
      refine ⟨?_, ?_, ?_, fun a ha => ?_⟩
      · rw [hnext.remaining, units_cons]
        simp only [afterAsk]
        ring
      · rw [hnext.filledTotal, units_cons]
        simp only [afterAsk]
        ring
      · rw [hnext.gross, value_cons]
        simp only [afterAsk, listedPrice]
        ring
      · obtain ⟨a', ha', hbalance⟩ := hnext.account _ (askTaken_buyer hstranger ha)
        refine ⟨a', ha', ?_⟩
        rw [hbalance, List.map_cons, List.sum_cons]
        ring

theorem matchBids_returns (h : Sellable db request es p) :
    ∃ r, matchBids request orderId es p db = .ok r := by
  induction es generalizing p db with
  | nil => exact ⟨_, pure_ok.mpr rfl⟩
  | cons e es ih =>
    by_cases h0 : p.remaining = 0
    · exact ⟨_, ite_ok.mpr (.inl ⟨h0, pure_ok.mpr rfl⟩)⟩
    obtain ⟨hprice, hquantity, hreserve⟩ := h.bids e (List.mem_cons_self ..)
    have hrem := h.remaining
    have hcost := h.cost
    have hroom := h.seller
    have hpos : 0 < min p.remaining e.2.remainingQty := by omega
    have hle : min p.remaining e.2.remainingQty ≤ p.remaining := min_le_left _ _
    have hrest : 0 ≤ value listedPrice (walk listedPrice listedQuantity es
        (p.remaining - min p.remaining e.2.remainingQty) none) :=
      walk_value_nonneg fun a ha => (h.bids a (List.mem_cons_of_mem _ ha)).1
    have hcovered : e.2.priceCents * min p.remaining e.2.remainingQty ≤ e.2.reservedCents := by
      rw [hreserve]
      exact mul_le_mul_of_nonneg_left (min_le_right _ _) hprice.le
    rw [walk_unlimited h0 hpos, value_cons] at hcost hroom
    generalize hq : min p.remaining e.2.remainingQty = q at *
    have hpaid : 0 ≤ e.2.priceCents * q := mul_nonneg hprice.le hpos.le
    have hlisted : listedPrice e * q = e.2.priceCents * q := rfl
    rw [hlisted] at hcost hroom
    have htake : takeBid request orderId e.1 e.2 p db =
        .ok (afterBid e.2 q p, Db.bidTaken db request orderId e.1 e.2 q) := by
      refine takeBid_ok.mpr ?_
      rw [hq]
      exact ⟨hprice, hpos, by linarith, hcovered, (hroom.mono (by linarith)).creditable hpaid, rfl⟩
    have hnext : Sellable (Db.bidTaken db request orderId e.1 e.2 q) request es (afterBid e.2 q p) := by
      refine ⟨fun a ha => h.bids a (List.mem_cons_of_mem _ ha), sub_nonneg.mpr hle, ?_, ?_⟩
      · simp only [afterBid]
        linarith
      · exact @HasRoom.post (Db.setOrder db e.1 (restingBidAfter (e.2.remainingQty - q)
          (e.2.reservedCents - e.2.priceCents * q))) request.playerUuid _ _ _ .tradeProceeds
          (some (.order orderId)) hroom hpaid
    obtain ⟨r, hr⟩ := ih hnext
    exact ⟨r, ite_ok.mpr (.inr ⟨h0, bind_ok.mpr ⟨_, htake, hr⟩⟩)⟩

end Returning
end EndstoneExchange.MatchingWalk
