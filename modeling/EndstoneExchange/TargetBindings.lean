import EndstoneExchange.ServiceRuns

/-!
# Markets and the targets they are bound to

The bindings point every target to its active market. Switching a market on,
switching it off and adding a new one keep the pointers and the two flags in step.
-/
namespace EndstoneExchange.TargetBindings
open AutoIncrementTables KeyedTables ExchangeDomain

/-- A market that takes orders now or can be resumed. -/
def Usable (m : MarketRow) : Prop := m.active = true ∨ m.reopenable = true

structure SameGoods (m n : MarketRow) : Prop where
  target : n.targetKey = m.targetKey
  kind : n.targetKind = m.targetKind
  book : n.bookId = m.bookId

/-- One market row at two times: only the flags differ. -/
def SameGeneration (m n : MarketRow) : Prop :=
  n = { m with active := n.active, reopenable := n.reopenable }

theorem SameGeneration.refl (m : MarketRow) : SameGeneration m m := rfl

theorem SameGeneration.trans {m n k : MarketRow} (h : SameGeneration m n) (h' : SameGeneration n k) :
    SameGeneration m k := by
  rw [SameGeneration] at h h' ⊢
  rw [h', h]

theorem sameGeneration_flags (m : MarketRow) (active reopenable : Bool) :
    SameGeneration m { m with active, reopenable } := rfl

structure Bound (markets : Table MarketRow) (bindings : KeyedTable String Id) : Prop where
  bound : ∀ target id, bindings.find? target = some id ↔
    ∃ m, markets.get? id = some m ∧ m.active = true ∧ m.targetKey = target
  exclusive : ∀ id m, markets.get? id = some m → m.active = true → m.reopenable = false
  unique : ∀ i j m n, markets.get? i = some m → markets.get? j = some n → SameGoods m n →
    Usable m → Usable n → i = j

section Bound
variable {markets : Table MarketRow} {bindings : KeyedTable String Id} {id : Id} {m : MarketRow}

theorem bound_empty : Bound {} .empty where
  bound := by simp
  exclusive := by simp
  unique := by simp

theorem Bound.one_active (h : Bound markets bindings) {i j : Id} {m n : MarketRow}
    (hm : markets.get? i = some m) (hn : markets.get? j = some n) (ha : m.active = true)
    (ha' : n.active = true) (ht : n.targetKey = m.targetKey) : i = j := by
  have hi : bindings.find? m.targetKey = some i := (h.bound _ _).mpr ⟨m, hm, ha, rfl⟩
  have hj : bindings.find? m.targetKey = some j := (h.bound _ _).mpr ⟨n, hn, ha', ht⟩
  exact Option.some.inj (hi.symm.trans hj)

theorem Bound.congr (h : Bound markets bindings) {bindings' : KeyedTable String Id}
    (hb : ∀ target, bindings'.find? target = bindings.find? target) : Bound markets bindings' where
  bound target id := by rw [hb, h.bound]
  exclusive := h.exclusive
  unique := h.unique

/-- Bindings of a market that is not active do not exist. -/
theorem Bound.unbound (h : Bound markets bindings) (hm : markets.get? id = some m)
    (ha : m.active = false) (target : String) : bindings.find? target ≠ some id := by
  intro hf
  obtain ⟨m', hm', ha', -⟩ := (h.bound target id).mp hf
  obtain rfl : m' = m := Option.some.inj (hm'.symm.trans hm)
  rw [ha] at ha'
  cases ha'

/-- A free target has no active market. -/
theorem Bound.free (h : Bound markets bindings) {target : String}
    (hf : bindings.find? target = none) (hm : markets.get? id = some m) (ht : m.targetKey = target) :
    m.active = false := by
  by_contra hact
  have ha : m.active = true := by simpa using hact
  have hbound := (h.bound target id).mpr ⟨m, hm, ha, ht⟩
  rw [hf] at hbound
  cases hbound

/-- Closing or retiring a market. -/
theorem Bound.switchOff (h : Bound markets bindings) (hm : markets.get? id = some m)
    {reopenable : Bool} (hr : reopenable = true → Usable m) :
    Bound (markets.update id fun m => { m with active := false, reopenable })
      (bindings.filter fun target i => ¬ (target = m.targetKey ∧ i = id)) where
  bound target i := by
    rw [KeyedTable.find?_filter]
    constructor
    · intro hf
      obtain ⟨hf, hkeep⟩ := Option.filter_eq_some_iff.mp hf
      obtain ⟨n, hn, ha, ht⟩ := (h.bound target i).mp hf
      have hne : i ≠ id := by
        rintro rfl
        obtain rfl : n = m := Option.some.inj (hn.symm.trans hm)
        simp [ht] at hkeep
      exact ⟨n, by rw [Table.get?_update_ne _ _ hne, hn], ha, ht⟩
    · rintro ⟨n, hn, ha, ht⟩
      rcases Table.get?_update_cases hn with ⟨-, n', -, rfl⟩ | ⟨hne, hn⟩
      · cases ha
      · refine Option.filter_eq_some_iff.mpr ⟨(h.bound target i).mpr ⟨n, hn, ha, ht⟩, ?_⟩
        simp [hne]
  exclusive i n hn ha := by
    rcases Table.get?_update_cases hn with ⟨-, n', -, rfl⟩ | ⟨-, hn⟩
    · cases ha
    · exact h.exclusive i n hn ha
  unique i j n k hn hk hs hu hu' := by
    have hold : ∀ {i : Id} {n : MarketRow},
        (markets.update id fun m => { m with active := false, reopenable }).get? i = some n →
        Usable n → ∃ n', markets.get? i = some n' ∧ SameGoods n n' ∧ SameGoods n' n ∧ Usable n' := by
      intro i n hn hu
      rcases Table.get?_update_cases hn with ⟨rfl, n', hn', rfl⟩ | ⟨-, hn⟩
      · obtain rfl : n' = m := Option.some.inj (hn'.symm.trans hm)
        have hr' : reopenable = true := hu.resolve_left (by simp)
        exact ⟨n', hm, ⟨rfl, rfl, rfl⟩, ⟨rfl, rfl, rfl⟩, hr hr'⟩
      · exact ⟨n, hn, ⟨rfl, rfl, rfl⟩, ⟨rfl, rfl, rfl⟩, hu⟩
    obtain ⟨n', hn', -, hs₁, hu₁⟩ := hold hn hu
    obtain ⟨k', hk', hs₂, -, hu₂⟩ := hold hk hu'
    exact h.unique i j n' k' hn' hk' ⟨hs₂.target.trans (hs.target.trans hs₁.target),
      hs₂.kind.trans (hs.kind.trans hs₁.kind), hs₂.book.trans (hs.book.trans hs₁.book)⟩ hu₁ hu₂

/-- Resuming a paused market on its free target. -/
theorem Bound.switchOn (h : Bound markets bindings) (hm : markets.get? id = some m)
    (hf : bindings.find? m.targetKey = none) (hr : m.reopenable = true) :
    Bound (markets.update id fun m => { m with active := true, reopenable := false })
      (bindings.insert m.targetKey id) where
  bound target i := by
    rw [KeyedTable.find?_insert id hf]
    have hinactive := h.free hf hm rfl
    constructor
    · intro hfind
      split_ifs at hfind with ht
      · obtain rfl := Option.some.inj hfind
        exact ⟨{ m with active := true, reopenable := false }, by rw [Table.get?_update_self, hm]; rfl,
          rfl, ht.symm⟩
      · obtain ⟨n, hn, ha, ht'⟩ := (h.bound target i).mp hfind
        have hne : i ≠ id := by
          rintro rfl
          obtain rfl : n = m := Option.some.inj (hn.symm.trans hm)
          exact ht ht'.symm
        exact ⟨n, by rw [Table.get?_update_ne _ _ hne, hn], ha, ht'⟩
    · rintro ⟨n, hn, ha, ht⟩
      rcases Table.get?_update_cases hn with ⟨rfl, n', hn', rfl⟩ | ⟨hne, hn⟩
      · obtain rfl : n' = m := Option.some.inj (hn'.symm.trans hm)
        exact if_pos ht.symm
      · have hfree : ¬ target = m.targetKey := by
          rintro rfl
          have hoff := h.free hf hn ht
          rw [ha] at hoff
          cases hoff
        rw [if_neg hfree]
        exact (h.bound target i).mpr ⟨n, hn, ha, ht⟩
  exclusive i n hn ha := by
    rcases Table.get?_update_cases hn with ⟨-, n', -, rfl⟩ | ⟨-, hn⟩
    · rfl
    · exact h.exclusive i n hn ha
  unique i j n k hn hk hs hu hu' := by
    have hold : ∀ {i : Id} {n : MarketRow},
        (markets.update id fun m => { m with active := true, reopenable := false }).get? i = some n →
        Usable n → ∃ n', markets.get? i = some n' ∧ SameGoods n n' ∧ SameGoods n' n ∧ Usable n' := by
      intro i n hn hu
      rcases Table.get?_update_cases hn with ⟨rfl, n', hn', rfl⟩ | ⟨-, hn⟩
      · obtain rfl : n' = m := Option.some.inj (hn'.symm.trans hm)
        exact ⟨n', hm, ⟨rfl, rfl, rfl⟩, ⟨rfl, rfl, rfl⟩, .inr hr⟩
      · exact ⟨n, hn, ⟨rfl, rfl, rfl⟩, ⟨rfl, rfl, rfl⟩, hu⟩
    obtain ⟨n', hn', -, hs₁, hu₁⟩ := hold hn hu
    obtain ⟨k', hk', hs₂, -, hu₂⟩ := hold hk hu'
    exact h.unique i j n' k' hn' hk' ⟨hs₂.target.trans (hs.target.trans hs₁.target),
      hs₂.kind.trans (hs.kind.trans hs₁.kind), hs₂.book.trans (hs.book.trans hs₁.book)⟩ hu₁ hu₂

/-- Opening a market on a free target that nothing there can be resumed for. -/
theorem Bound.open (h : Bound markets bindings) (hf : bindings.find? m.targetKey = none)
    (ha : m.active = true) (hr : m.reopenable = false)
    (hnew : ∀ i n, markets.get? i = some n → SameGoods m n → n.active = false → n.reopenable = false) :
    Bound (markets.insert m) (bindings.insert m.targetKey markets.nextId) where
  bound target i := by
    rw [KeyedTable.find?_insert markets.nextId hf]
    constructor
    · intro hfind
      split_ifs at hfind with ht
      · obtain rfl := Option.some.inj hfind
        exact ⟨m, Table.get?_insert_self _ _, ha, ht.symm⟩
      · obtain ⟨n, hn, ha', ht'⟩ := (h.bound target i).mp hfind
        exact ⟨n, Table.get?_insert_old _ hn, ha', ht'⟩
    · rintro ⟨n, hn, ha', ht⟩
      rcases Table.get?_insert_cases hn with ⟨rfl, rfl⟩ | ⟨hne, hn⟩
      · exact if_pos ht.symm
      · have hfree : ¬ target = m.targetKey := by
          rintro rfl
          have hoff := h.free hf hn ht
          rw [ha'] at hoff
          cases hoff
        rw [if_neg hfree]
        exact (h.bound target i).mpr ⟨n, hn, ha', ht⟩
  exclusive i n hn ha' := by
    rcases Table.get?_insert_cases hn with ⟨-, rfl⟩ | ⟨-, hn⟩
    · exact hr
    · exact h.exclusive i n hn ha'
  unique i j n k hn hk hs hu hu' := by
    have hfresh : ∀ {i : Id} {n : MarketRow}, markets.get? i = some n → SameGoods m n → ¬ Usable n := by
      rintro i n hn hs (hact | hre)
      · have hoff := h.free hf hn hs.target
        rw [hact] at hoff
        cases hoff
      · have hoff := hnew i n hn hs (h.free hf hn hs.target)
        rw [hre] at hoff
        cases hoff
    rcases Table.get?_insert_cases hn with ⟨rfl, rfl⟩ | ⟨-, hn'⟩
    · rcases Table.get?_insert_cases hk with ⟨rfl, rfl⟩ | ⟨-, hk'⟩
      · rfl
      · exact absurd hu' (hfresh hk' hs)
    · rcases Table.get?_insert_cases hk with ⟨rfl, rfl⟩ | ⟨-, hk'⟩
      · exact absurd hu (hfresh hn' ⟨hs.target.symm, hs.kind.symm, hs.book.symm⟩)
      · exact h.unique i j n k hn' hk' hs hu hu'

end Bound
end EndstoneExchange.TargetBindings
