import Mathlib.Algebra.BigOperators.Group.List.Basic
import Mathlib.Algebra.BigOperators.Group.List.Lemmas
import Mathlib.Algebra.BigOperators.Group.Finset.Basic
import Mathlib.Algebra.Order.BigOperators.Group.List
import Mathlib.Tactic.Abel
import Mathlib.Tactic.SplitIfs

/-!
# Tables with an auto-increment primary key

A table is the list of its rows in insertion order. Rows are never deleted, so
the row at position `i` carries the key `i + 1` and keys are unique by
construction. Column sums are taken in an arbitrary commutative group.
-/
namespace EndstoneExchange.AutoIncrementTables

/-- A table whose rows are only appended and rewritten in place. -/
structure Table (α : Type*) where
  rows : List α := []
  deriving DecidableEq, Repr

namespace Table
variable {α : Type*} {M : Type*} [AddCommGroup M]

def nextId (t : Table α) : ℕ := t.rows.length + 1

def get? (t : Table α) : ℕ → Option α
  | 0 => none
  | i + 1 => t.rows[i]?

def insert (t : Table α) (a : α) : Table α := ⟨t.rows ++ [a]⟩

/-- Rewrite one row; a missing key leaves the table alone. -/
def update (t : Table α) (id : ℕ) (f : α → α) : Table α :=
  match id with
  | 0 => t
  | i + 1 => ⟨t.rows.modify i f⟩

/-- The rows together with their keys, in key order. -/
def entries (t : Table α) : List (ℕ × α) := (t.rows.zipIdx 1).map Prod.swap

/-- The sum of a column over all rows. -/
def sum (w : α → M) (t : Table α) : M := (t.rows.map w).sum

@[simp] theorem get?_empty (i : ℕ) : (⟨[]⟩ : Table α).get? i = none := by
  cases i <;> rfl

theorem lt_nextId {t : Table α} {i : ℕ} {a : α} (h : t.get? i = some a) :
    0 < i ∧ i < t.nextId := by
  cases i with
  | zero => simp [get?] at h
  | succ i =>
    have hi := (List.getElem?_eq_some_iff.mp h).1
    exact ⟨i.succ_pos, by simpa [nextId] using hi⟩

@[simp] theorem get?_nextId (t : Table α) : t.get? t.nextId = none := by
  simp [nextId, get?]

theorem ne_nextId {t : Table α} {i : ℕ} {a : α} (h : t.get? i = some a) : i ≠ t.nextId :=
  (lt_nextId h).2.ne

theorem get?_of_lt {t : Table α} {i : ℕ} (hpos : 0 < i) (hlt : i < t.nextId) :
    ∃ a, t.get? i = some a := by
  obtain ⟨i, rfl⟩ := Nat.exists_eq_succ_of_ne_zero hpos.ne'
  have hi : i < t.rows.length := by simpa [nextId] using hlt
  exact ⟨t.rows[i], List.getElem?_eq_getElem hi⟩

theorem mem_rows_iff {t : Table α} {a : α} : a ∈ t.rows ↔ ∃ i, t.get? i = some a := by
  constructor
  · intro h
    obtain ⟨i, hi⟩ := List.mem_iff_getElem?.mp h
    exact ⟨i + 1, hi⟩
  · rintro ⟨i, hi⟩
    cases i with
    | zero => simp [get?] at hi
    | succ i => exact List.mem_of_getElem? hi

section Insert

@[simp] theorem nextId_insert (t : Table α) (a : α) : (t.insert a).nextId = t.nextId + 1 := by
  simp [nextId, insert]

theorem get?_insert (t : Table α) (a : α) (i : ℕ) :
    (t.insert a).get? i = if i = t.nextId then some a else t.get? i := by
  cases i with
  | zero => simp [get?, nextId]
  | succ i =>
    simp only [get?, insert, nextId, Nat.add_right_cancel_iff, List.getElem?_append]
    by_cases h : i < t.rows.length
    · simp [h, h.ne]
    · by_cases he : i = t.rows.length
      · simp [he]
      · have hn : t.rows[i]? = none := by simp; omega
        rw [if_neg h, if_neg he, hn, List.getElem?_eq_none_iff]
        simp only [List.length_cons, List.length_nil]
        omega

@[simp] theorem get?_insert_self (t : Table α) (a : α) :
    (t.insert a).get? t.nextId = some a := by simp [get?_insert]

theorem get?_insert_old {t : Table α} {i : ℕ} {b : α} (a : α) (h : t.get? i = some b) :
    (t.insert a).get? i = some b := by rw [get?_insert, if_neg (ne_nextId h), h]

@[simp] theorem sum_insert (w : α → M) (t : Table α) (a : α) :
    (t.insert a).sum w = t.sum w + w a := by simp [sum, insert]

end Insert

section Update

@[simp] theorem nextId_update (t : Table α) (id : ℕ) (f : α → α) :
    (t.update id f).nextId = t.nextId := by cases id <;> simp [nextId, update]

theorem get?_update (t : Table α) (id : ℕ) (f : α → α) (i : ℕ) :
    (t.update id f).get? i = if i = id then (t.get? i).map f else t.get? i := by
  cases id with
  | zero => cases i <;> simp [get?, update]
  | succ id =>
    cases i with
    | zero => simp [get?]
    | succ i =>
      simp only [get?, update, Nat.add_right_cancel_iff, List.getElem?_modify]
      by_cases h : i = id
      · simp [h]
      · simp [h, Ne.symm h]

@[simp] theorem get?_update_self (t : Table α) (id : ℕ) (f : α → α) :
    (t.update id f).get? id = (t.get? id).map f := by simp [get?_update]

theorem get?_update_ne (t : Table α) {id i : ℕ} (f : α → α) (h : i ≠ id) :
    (t.update id f).get? i = t.get? i := by simp [get?_update, h]

theorem update_update (t : Table α) (id : ℕ) (f g : α → α) :
    (t.update id f).update id g = t.update id (g ∘ f) := by
  cases id with
  | zero => rfl
  | succ id => simp [update, List.modify_modify_eq]

theorem update_comm (t : Table α) {i j : ℕ} (f g : α → α) (h : i ≠ j) :
    (t.update i f).update j g = (t.update j g).update i f := by
  cases i with
  | zero => rfl
  | succ i =>
    cases j with
    | zero => rfl
    | succ j =>
      have hij : i ≠ j := fun he => h (by rw [he])
      simp [update, List.modify_modify_ne _ _ _ hij]

/-- A rewrite that relates each row to its successor does so under every key. -/
theorem exists_get?_update {R : α → α → Prop} (hrefl : ∀ a, R a a) {f : α → α} (hf : ∀ a, R a (f a))
    {t : Table α} {i : ℕ} {a : α} (h : t.get? i = some a) (id : ℕ) :
    ∃ b, (t.update id f).get? i = some b ∧ R a b := by
  rw [get?_update, h]
  by_cases hi : i = id
  · exact ⟨f a, by simp [hi], hf a⟩
  · exact ⟨a, by simp [hi], hrefl a⟩

/-- The rows of a table after a rewrite. -/
theorem get?_update_cases {t : Table α} {id i : ℕ} {f : α → α} {b : α}
    (h : (t.update id f).get? i = some b) :
    (i = id ∧ ∃ a, t.get? id = some a ∧ b = f a) ∨ (i ≠ id ∧ t.get? i = some b) := by
  rw [get?_update] at h
  split_ifs at h with hi
  · obtain ⟨a, ha, hb⟩ := Option.map_eq_some_iff.mp h
    exact .inl ⟨hi, a, hi ▸ ha, hb.symm⟩
  · exact .inr ⟨hi, h⟩

/-- The rows of a table after one was appended. -/
theorem get?_insert_cases {t : Table α} {i : ℕ} {a b : α} (h : (t.insert a).get? i = some b) :
    (i = t.nextId ∧ b = a) ∨ (i ≠ t.nextId ∧ t.get? i = some b) := by
  rw [get?_insert] at h
  split_ifs at h with hi
  · exact .inl ⟨hi, (Option.some.inj h).symm⟩
  · exact .inr ⟨hi, h⟩

/-- Two rewrites that agree on the row agree on the table. -/
theorem update_congr {t : Table α} {id : ℕ} {f g : α → α} (h : ∀ a, t.get? id = some a → f a = g a) :
    t.update id f = t.update id g := by
  cases id with
  | zero => rfl
  | succ id =>
    simp only [update, Table.mk.injEq]
    refine List.ext_getElem? fun i => ?_
    simp only [List.getElem?_modify]
    by_cases hi : id = i
    · subst hi
      cases hr : t.rows[id]? with
      | none => simp
      | some a => simp [h a hr]
    · simp [hi]

/-- A rewrite that fixes the row leaves the table alone. -/
theorem update_eq_self {t : Table α} {i : ℕ} {f : α → α} (h : ∀ a, t.get? i = some a → f a = a) :
    t.update i f = t := by
  rw [update_congr (g := id) h]
  cases i with
  | zero => rfl
  | succ i => exact congrArg Table.mk (List.modify_id i t.rows)

private theorem sum_modify (w : α → M) (l : List α) (i : ℕ) (f : α → α) {a : α}
    (h : l[i]? = some a) : ((l.modify i f).map w).sum = (l.map w).sum + (w (f a) - w a) := by
  induction l generalizing i with
  | nil => simp at h
  | cons b l ih =>
    cases i with
    | zero =>
      obtain rfl : b = a := by simpa using h
      simp only [List.modify_zero_cons, List.map_cons, List.sum_cons]
      abel
    | succ i =>
      have hi := ih i (by simpa using h)
      simp only [List.modify_succ_cons, List.map_cons, List.sum_cons, hi]
      abel

/-- Rewriting a row changes a column sum by the new value less the old one. -/
theorem sum_update (w : α → M) {t : Table α} {id : ℕ} (f : α → α) {a : α}
    (h : t.get? id = some a) : (t.update id f).sum w = t.sum w + (w (f a) - w a) := by
  cases id with
  | zero => simp [get?] at h
  | succ id => exact sum_modify w t.rows id f h

/-- An update that does not touch the summed column leaves the sum unchanged. -/
theorem sum_update_of_eq (w : α → M) (t : Table α) (id : ℕ) (f : α → α)
    (h : ∀ a, t.get? id = some a → w (f a) = w a) : (t.update id f).sum w = t.sum w := by
  cases hg : t.get? id with
  | none =>
    cases id with
    | zero => rfl
    | succ id => simp [update, List.modify_eq_self (by simpa [get?] using hg)]
  | some a => rw [sum_update w f hg, h a hg, sub_self, add_zero]

end Update

section Sums

theorem sum_congr {w v : α → M} {t : Table α} (h : ∀ i a, t.get? i = some a → w a = v a) :
    t.sum w = t.sum v := by
  refine congrArg List.sum (List.map_congr_left fun a ha => ?_)
  obtain ⟨i, hi⟩ := mem_rows_iff.mp ha
  exact h i a hi

theorem sum_eq_zero {w : α → M} {t : Table α} (h : ∀ i a, t.get? i = some a → w a = 0) :
    t.sum w = 0 := by
  rw [sum_congr (v := fun _ => 0) h]
  simp [sum]

theorem sum_add (w v : α → M) (t : Table α) :
    t.sum (fun a => w a + v a) = t.sum w + t.sum v := by
  simp only [sum]
  exact List.sum_map_add

theorem sum_nonneg {w : α → ℤ} {t : Table α} (h : ∀ i a, t.get? i = some a → 0 ≤ w a) :
    0 ≤ t.sum w := by
  refine List.sum_nonneg fun x hx => ?_
  obtain ⟨a, ha, rfl⟩ := List.mem_map.mp hx
  obtain ⟨i, hi⟩ := mem_rows_iff.mp ha
  exact h i a hi

end Sums

section KeyedSums

/-- The sum over all rows of a column that may depend on the key. -/
def keyedSum (w : ℕ → α → M) (t : Table α) : M :=
  ∑ id ∈ Finset.range t.nextId, (t.get? id).elim 0 (w id)

variable {w v : ℕ → α → M} {t u : Table α}

theorem keyedSum_insert (w : ℕ → α → M) (t : Table α) (a : α) :
    (t.insert a).keyedSum w = t.keyedSum w + w t.nextId a := by
  have hold : ∀ id ∈ Finset.range t.nextId,
      ((t.insert a).get? id).elim 0 (w id) = (t.get? id).elim 0 (w id) := by
    intro id hid
    rw [get?_insert, if_neg (Finset.mem_range.mp hid).ne]
  rw [keyedSum, nextId_insert, Finset.sum_range_succ, get?_insert_self, Finset.sum_congr rfl hold]
  rfl

/-- Two keyed sums that agree everywhere but under one key. -/
theorem keyedSum_others {id : ℕ} {a b : α} (ha : t.get? id = some a) (hb : u.get? id = some b)
    (hnext : u.nextId = t.nextId) (hrows : ∀ j, j ≠ id → u.get? j = t.get? j)
    (hcolumns : ∀ j, j ≠ id → v j = w j) : u.keyedSum v = t.keyedSum w + (v id b - w id a) := by
  have hmem : id ∈ Finset.range t.nextId := Finset.mem_range.mpr (lt_nextId ha).2
  have hrest : ∀ j ∈ (Finset.range t.nextId).erase id,
      (u.get? j).elim 0 (v j) = (t.get? j).elim 0 (w j) := by
    intro j hj
    rw [hrows j (Finset.ne_of_mem_erase hj), hcolumns j (Finset.ne_of_mem_erase hj)]
  rw [keyedSum, keyedSum, hnext, ← Finset.add_sum_erase _ _ hmem, ← Finset.add_sum_erase _ _ hmem,
    Finset.sum_congr rfl hrest, ha, hb]
  simp only [Option.elim_some]
  abel

theorem keyedSum_congr (h : ∀ id a, t.get? id = some a → w id a = v id a) : t.keyedSum w = t.keyedSum v := by
  refine Finset.sum_congr rfl fun id _ => ?_
  cases ha : t.get? id with
  | none => rfl
  | some a => exact h id a ha

/-- Without the keys it is the sum of the column. -/
theorem keyedSum_const (w : α → M) (t : Table α) : t.keyedSum (fun _ => w) = t.sum w := by
  obtain ⟨rows⟩ := t
  induction rows using List.reverseRecOn with
  | nil => simp [keyedSum, sum, nextId, get?]
  | append_singleton rows a ih =>
    have hinsert : (⟨rows ++ [a]⟩ : Table α) = (⟨rows⟩ : Table α).insert a := rfl
    rw [hinsert, keyedSum_insert, sum_insert, ih]

end KeyedSums

section Collections
variable {β : Type*}

/-- What a partial projection reads off the rows, in key order. -/
def collect (w : α → Option β) (t : Table α) : List β := t.rows.filterMap w

@[simp] theorem collect_insert (w : α → Option β) (t : Table α) (a : α) :
    (t.insert a).collect w = t.collect w ++ (w a).toList := by
  cases h : w a <;> simp [collect, insert, h]

theorem collect_update (w : α → Option β) (t : Table α) (id : ℕ) {f : α → α} (h : ∀ a, w (f a) = w a) :
    (t.update id f).collect w = t.collect w := by
  cases id with
  | zero => rfl
  | succ i =>
    simp only [collect, update]
    induction t.rows generalizing i with
    | nil => rw [List.modify_nil]
    | cons a l ih =>
      cases i with
      | zero => simp only [List.modify_zero_cons, List.filterMap_cons, h]
      | succ i => simp only [List.modify_succ_cons, List.filterMap_cons, ih]

end Collections

section Entries

@[simp] theorem mem_entries {t : Table α} {i : ℕ} {a : α} :
    (i, a) ∈ t.entries ↔ t.get? i = some a := by
  simp only [entries, List.mem_map, Prod.exists, Prod.swap_prod_mk, Prod.mk.injEq,
    List.mk_mem_zipIdx_iff_le_and_getElem?_sub]
  constructor
  · rintro ⟨b, j, ⟨hj, hb⟩, rfl, rfl⟩
    obtain ⟨k, rfl⟩ := Nat.exists_eq_add_of_le' hj
    simpa [get?] using hb
  · intro h
    cases i with
    | zero => simp [get?] at h
    | succ i => exact ⟨a, i + 1, ⟨Nat.le_add_left 1 i, by simpa [get?] using h⟩, rfl, rfl⟩

theorem entries_insert (t : Table α) (a : α) : (t.insert a).entries = t.entries ++ [(t.nextId, a)] := by
  simp [entries, insert, nextId, List.zipIdx_append, Nat.add_comm]

/-- Keys increase along the enumeration of a table. -/
theorem entries_sorted (t : Table α) : t.entries.Pairwise (fun a b => a.1 < b.1) := by
  have h : (t.entries.map Prod.fst).Pairwise (· < ·) := by
    have hs : Prod.fst ∘ (Prod.swap : α × ℕ → ℕ × α) = Prod.snd := rfl
    rw [entries, List.map_map, hs, List.zipIdx_map_snd]
    exact List.pairwise_lt_range'
  exact List.pairwise_map.mp h

end Entries
end Table
end EndstoneExchange.AutoIncrementTables
