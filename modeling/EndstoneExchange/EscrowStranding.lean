import EndstoneExchange.DeliveryOrigins

/-!
# Stranded sell escrows

A tagged escrow needs its market to become an order. Retiring a market settles
the orders that rest there and overlooks the escrows that are bound to it; an
escrow may also be tagged after the retirement. These are the only two ways in
which an escrow is stranded.
-/
namespace EndstoneExchange.EscrowStranding
open AutoIncrementTables KeyedTables DurablePrograms ExchangeDomain ExchangeTransactions
  MarketOperations SellEscrowOperations ClearingSteps RowHistories ServiceRuns DeliveryOrigins

/-- A market that no operation opens again. -/
def Retired (m : MarketRow) : Prop := m.active = false ∧ m.reopenable = false

instance (m : MarketRow) : Decidable (Retired m) := inferInstanceAs (Decidable (_ ∧ _))

/-- No tagged escrow is at a retired market. -/
def NoneStranded (db : Db) : Prop :=
  ∀ i e m, db.sellEscrows.get? i = some e → e.status = .tagged →
    db.markets.get? e.marketId = some m → ¬ Retired m

/-- What a step that retires markets or tags escrows must find. -/
structure Guarded (allow : Special → Prop) (db : Db) : Prop where
  retires : ∀ id, allow (.retireMarket id) → ∀ i e, db.sellEscrows.get? i = some e →
    e.status = .tagged → e.marketId ≠ id
  tags : ∀ id, allow (.tagEscrow id) → ∀ e m, db.sellEscrows.get? id = some e →
    db.markets.get? e.marketId = some m → ¬ Retired m
  stranded : NoneStranded db

/-- A step retires or tags, never both. -/
def Exclusive (allow : Special → Prop) : Prop :=
  ∀ id escrowId, allow (.retireMarket id) → ¬ allow (.tagEscrow escrowId)

variable {settings : Settings} {allow : Special → Prop} {d d' : Desk} {db db' : Db}

section Steps

/-- Escrows that are settled or unchanged leave nobody stranded. -/
theorem Guarded.escrows (hI : Guarded allow db) (hm : db'.markets = db.markets)
    (h : ∀ i e, db'.sellEscrows.get? i = some e → ∃ e', db.sellEscrows.get? i = some e' ∧
      e.marketId = e'.marketId ∧ (e.status = .tagged → e'.status = .tagged)) : Guarded allow db' := by
  refine ⟨fun id ha i e he hs => ?_, fun id ha e m he hget => ?_, fun i e m he hs hget => ?_⟩
  · obtain ⟨e', he', hmarket, htagged⟩ := h i e he
    rw [hmarket]
    exact hI.retires id ha i e' he' (htagged hs)
  · obtain ⟨e', he', hmarket, -⟩ := h id e he
    rw [hm, hmarket] at hget
    exact hI.tags id ha e' m he' hget
  · obtain ⟨e', he', hmarket, htagged⟩ := h i e he
    rw [hm, hmarket] at hget
    exact hI.stranded i e' m he' (htagged hs) hget

/-- A rewrite of one escrow that tags nothing. -/
theorem Guarded.setEscrow (hI : Guarded allow db) {id : Id} {f : SellEscrowRow → SellEscrowRow}
    (hf : ∀ e, (f e).marketId = e.marketId ∧ ((f e).status = .tagged → e.status = .tagged)) :
    Guarded allow (Db.setEscrow db id f) := by
  refine @Guarded.escrows _ _ (Db.setEscrow db id f) hI rfl fun i e he => ?_
  rcases Table.get?_update_cases he with ⟨rfl, e', he', rfl⟩ | ⟨-, he'⟩
  · exact ⟨e', he', hf e'⟩
  · exact ⟨e, he', rfl, fun h => h⟩

private theorem guarded_step (h : Step settings allow d d') (hx : Exclusive allow) (hI : Guarded allow d.db) :
    Guarded allow d'.db := by
  cases h with
  | @openMarket db market book hb hi ha =>
    have hopen : ∀ {id : Id} {m : MarketRow}, (Db.addMarket db market).markets.get? id = some m →
        db.markets.get? id = some m ∨ ¬ Retired m := by
      intro id m hget
      rcases Table.get?_insert_cases hget with ⟨-, rfl⟩ | ⟨-, hget⟩
      · exact .inr fun hr => Bool.false_ne_true (hr.1.symm.trans ha)
      · exact .inl hget
    refine ⟨hI.retires, fun id hallow e m he hget => ?_, fun i e m he hs hget => ?_⟩
    · exact (hopen hget).elim (hI.tags id hallow e m he) fun h => h
    · exact (hopen hget).elim (hI.stranded i e m he hs) fun h => h
  | @switchMarket db marketId active reopenable ha =>
    have hswitch : ∀ {id : Id} {m : MarketRow}, (Db.setMarket db marketId fun m =>
        { m with active, reopenable }).markets.get? id = some m → Retired m →
          db.markets.get? id = some m ∨ id = marketId ∧ allow (.retireMarket marketId) := by
      intro id m hget hr
      rcases Table.get?_update_cases hget with ⟨rfl, m', -, rfl⟩ | ⟨-, hget⟩
      · exact .inr ⟨rfl, ha hr.1 hr.2⟩
      · exact .inl hget
    refine ⟨hI.retires, fun id hallow e m he hget hr => ?_, fun i e m he hs hget hr => ?_⟩
    · rcases hswitch hget hr with hget | ⟨-, hretire⟩
      · exact hI.tags id hallow e m he hget hr
      · exact hx _ _ hretire hallow
    · rcases hswitch hget hr with hget | ⟨hid, hretire⟩
      · exact hI.stranded i e m he hs hget hr
      · exact hI.retires marketId hretire i e he hs hid
  | @prepareEscrow db e m hm ha hq hs =>
    have hnew : ∀ {i : Id} {e' : SellEscrowRow}, (Db.addEscrow db e).sellEscrows.get? i = some e' →
        e' = e ∨ db.sellEscrows.get? i = some e' := fun he =>
      (Table.get?_insert_cases he).imp And.right And.right
    refine ⟨fun id ha i e' he hs' => ?_, fun id hallow e' m' he hget => ?_,
      fun i e' m' he hs' hget => ?_⟩
    · rcases hnew he with rfl | he
      · exact absurd (hs.1.symm.trans hs') (by decide)
      · exact hI.retires id ha i e' he hs'
    · rcases hnew he with rfl | he
      · obtain rfl : m' = m := Option.some.inj (hget.symm.trans hm)
        exact fun hr => Bool.false_ne_true (hr.1.symm.trans ha)
      · exact hI.tags id hallow e' m' he hget
    · rcases hnew he with rfl | he
      · exact absurd (hs.1.symm.trans hs') (by decide)
      · exact hI.stranded i e' m' he hs' hget
  | @tagEscrow db escrowId e tagged receipts ha h hs =>
    have hset : ∀ {i : Id} {e' : SellEscrowRow}, (Db.setEscrow db escrowId fun e =>
        { e with taggedQty := tagged, receiptCount := receipts, status := .tagged }).sellEscrows.get? i =
          some e' → (i = escrowId ∧ e'.marketId = e.marketId) ∨ db.sellEscrows.get? i = some e' := by
      intro i e' he
      rcases Table.get?_update_cases he with ⟨rfl, e₁, he₁, rfl⟩ | ⟨-, he⟩
      · obtain rfl : e₁ = e := Option.some.inj (he₁.symm.trans h)
        exact .inl ⟨rfl, rfl⟩
      · exact .inr he
    refine ⟨fun id hretire => absurd ha (hx _ _ hretire), fun id hallow e' m he hget => ?_,
      fun i e' m he hs' hget => ?_⟩
    · rcases hset he with ⟨rfl, hmarket⟩ | he
      · exact hI.tags _ hallow e m h (hmarket ▸ hget)
      · exact hI.tags id hallow e' m he hget
    · rcases hset he with ⟨-, hmarket⟩ | he
      · exact hI.tags escrowId ha e m h (hmarket ▸ hget)
      · exact hI.stranded i e' m he hs' hget
  | orderEscrow =>
    exact (@Guarded.setEscrow _ (Db.deliver _ _ _ _ _))
      ⟨hI.retires, hI.tags, hI.stranded⟩ fun _ => ⟨rfl, by simp⟩
  | cancelEscrow => exact hI.setEscrow fun _ => ⟨rfl, by simp⟩
  | cleanEscrow => exact hI.setEscrow fun _ => ⟨rfl, fun h => h⟩
  | _ => exact ⟨hI.retires, hI.tags, hI.stranded⟩

end Steps

section Runs

/-- A retirement finds no tagged escrow at its market, and an escrow is tagged while its
market can still be active. -/
def Event.SparesEscrows (e : Event) : Prop :=
  match e.call with
  | .retireMarket marketId => ∀ i s, e.before.sellEscrows.get? i = some s → s.status = .tagged →
      s.marketId ≠ marketId
  | .markSellEscrowTagged escrowId .. => ∀ s m, e.before.sellEscrows.get? escrowId = some s →
      e.before.markets.get? s.marketId = some m → ¬ Retired m
  | _ => True

private theorem allows_exclusive (c : Call) : Exclusive c.Allows := by
  intro id escrowId hr ht
  cases c <;> simp only [Call.Allows] at hr ht

theorem Event.SparesEscrows.guarded {e : Event} (h : Event.SparesEscrows e) (hI : NoneStranded e.before) :
    Guarded e.call.Allows e.before := by
  refine ⟨fun id ha => ?_, fun id ha => ?_, hI⟩
  · cases hc : e.call <;> simp only [hc, Call.Allows] at ha
    simp only [Event.SparesEscrows, hc] at h
    exact ha ▸ h
  · cases hc : e.call <;> simp only [hc, Call.Allows] at ha
    simp only [Event.SparesEscrows, hc] at h
    exact ha ▸ h

end Runs

/-- Where every retirement and every tagging spares the escrows, none is ever stranded. -/
theorem none_stranded {history : List Event} (h : Run settings history db)
    (hs : ∀ e ∈ history, Event.SparesEscrows e) : NoneStranded db := by
  induction h with
  | start => intro i e m he; simp at he
  | @call history db h c faults ih =>
    have hI := ih fun e he => hs e (List.mem_append_left _ he)
    have hguard := hs ⟨c, db, c.leaves settings faults db⟩
      (List.mem_append_right _ (List.mem_singleton_self _))
    have hsteps := h.leaves_steps c faults
    exact (Steps.induct (I := fun d => Guarded c.Allows d.db)
      (fun hstep hI => guarded_step hstep (allows_exclusive c) hI) hsteps
      (Event.SparesEscrows.guarded hguard hI)).stranded

/-- An escrow that is tagged, executed and only then followed by a retirement. -/
theorem none_stranded_executed :
    NoneStranded (afterCalls sampleSettings [.activateMarket (diamondMarket "block"),
      .prepareSellEscrow (diamondOrder "bob" .sell .limit 900 5), .markSellEscrowTagged 1 6 1,
      .executeSellEscrow 1, .retireMarket 1]) := by
  refine none_stranded (((((Run.start.call _ []).call _ []).call _ []).call _ []).call _ []) ?_
  intro e he
  simp only [List.nil_append, List.mem_append, List.mem_singleton] at he
  obtain (((rfl | rfl) | rfl) | rfl) | rfl := he
  · trivial
  · trivial
  · intro s m hs hm hr
    obtain rfl := Option.some.inj (hs : some _ = some s)
    obtain rfl := Option.some.inj (hm : some _ = some m)
    exact Bool.false_ne_true hr.1.symm
  · trivial
  · intro i s hs ht
    have hmem := Table.mem_rows_iff.mpr ⟨i, hs⟩
    obtain rfl := List.mem_singleton.mp (hmem : s ∈ [_])
    exact absurd ht (by decide)

/-- A market is retired between the tagging of an escrow and its execution. The escrow can
then neither be executed nor canceled. -/
theorem retirement_strands_escrow :
    (¬ ∀ settings db, Reachable settings db → NoneStranded db) ∧
    let db := afterCalls sampleSettings [.activateMarket (diamondMarket "block"),
      .prepareSellEscrow (diamondOrder "bob" .sell .limit 900 5), .markSellEscrowTagged 1 6 1,
      .retireMarket 1]
    (executeSellEscrow 1 [] db).1 = .threw (.runtime "market is not active") ∧
      (cancelSellEscrow 1 [] db).1 = .threw (.runtime "only a prepared sell escrow can be canceled") := by
  refine ⟨fun h => ?_, rfl, rfl⟩
  have hnone := h sampleSettings _ (reachable_afterCalls sampleSettings
    [.activateMarket (diamondMarket "block"), .prepareSellEscrow (diamondOrder "bob" .sell .limit 900 5),
      .markSellEscrowTagged 1 6 1, .retireMarket 1])
  exact hnone 1 _ _ rfl rfl rfl ⟨rfl, rfl⟩

end EndstoneExchange.EscrowStranding
