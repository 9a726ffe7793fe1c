import Mathlib.Algebra.BigOperators.Group.List.Basic
import Mathlib.Algebra.Order.BigOperators.Group.List
import Mathlib.Data.List.Nodup
import Mathlib.Tactic.Abel

/-!
# Tables with a natural primary key

Rows are paired with their key and the structure carries the primary-key
constraint, so a table with a duplicate key cannot be built.
-/
namespace EndstoneExchange.KeyedTables

structure KeyedTable (κ α : Type*) where
  rows : List (κ × α)
  nodup : (rows.map Prod.fst).Nodup

namespace KeyedTable
variable {κ α : Type*} [DecidableEq κ] {M : Type*} [AddCommGroup M]

def empty : KeyedTable κ α := ⟨[], by simp⟩

def find? (t : KeyedTable κ α) (k : κ) : Option α := t.rows.lookup k

omit [DecidableEq κ] in
private theorem nodup_append_fresh {l : List (κ × α)} (hl : (l.map Prod.fst).Nodup) {k : κ} (a : α)
    (h : k ∉ l.map Prod.fst) : ((l ++ [(k, a)]).map Prod.fst).Nodup := by
  rw [List.map_append, List.map_cons, List.map_nil]
  refine List.nodup_append.mpr ⟨hl, by simp, fun j hj i hi e => h ?_⟩
  obtain rfl : i = k := List.mem_singleton.mp hi
  exact e ▸ hj

/-- Append a row under a fresh key; a taken key leaves the table alone. -/
def insert (t : KeyedTable κ α) (k : κ) (a : α) : KeyedTable κ α :=
  if h : k ∈ t.rows.map Prod.fst then t
  else ⟨t.rows ++ [(k, a)], nodup_append_fresh t.nodup a h⟩

private theorem map_fst_rewrite (l : List (κ × α)) (k : κ) (f : α → α) :
    (l.map fun p => if p.1 = k then (p.1, f p.2) else p).map Prod.fst = l.map Prod.fst := by
  rw [List.map_map]
  refine List.map_congr_left fun p _ => ?_
  by_cases h : p.1 = k <;> simp [h]

def update (t : KeyedTable κ α) (k : κ) (f : α → α) : KeyedTable κ α :=
  ⟨t.rows.map fun p => if p.1 = k then (p.1, f p.2) else p, by
    rw [map_fst_rewrite]; exact t.nodup⟩

def filter (t : KeyedTable κ α) (keep : κ → α → Bool) : KeyedTable κ α :=
  ⟨t.rows.filter fun p => keep p.1 p.2, t.nodup.sublist (List.filter_sublist.map _)⟩

def sum (w : α → M) (t : KeyedTable κ α) : M := (t.rows.map fun p => w p.2).sum

@[simp] theorem find?_empty (k : κ) : (empty : KeyedTable κ α).find? k = none := rfl

private theorem lookup_eq_some_iff {l : List (κ × α)} (hn : (l.map Prod.fst).Nodup) {k : κ} {a : α} :
    l.lookup k = some a ↔ (k, a) ∈ l := by
  induction l with
  | nil => simp
  | cons p l ih =>
    obtain ⟨j, b⟩ := p
    simp only [List.map_cons, List.nodup_cons] at hn
    by_cases h : k = j
    · subst h
      have hk : ∀ c, (k, c) ∉ l := fun c hc => hn.1 (List.mem_map_of_mem hc)
      simp [List.lookup_cons_self, hk, eq_comm]
    · rw [List.lookup_cons, show (k == j) = false from beq_eq_false_iff_ne.mpr h]
      simp [ih hn.2, h]

theorem find?_eq_some_iff {t : KeyedTable κ α} {k : κ} {a : α} :
    t.find? k = some a ↔ (k, a) ∈ t.rows := lookup_eq_some_iff t.nodup

private theorem find?_eq_none_iff {t : KeyedTable κ α} {k : κ} :
    t.find? k = none ↔ k ∉ t.rows.map Prod.fst := by
  constructor
  · intro h hk
    obtain ⟨⟨j, a⟩, hm, rfl⟩ := List.mem_map.mp hk
    rw [find?_eq_some_iff.mpr hm] at h
    cases h
  · intro h
    cases hf : t.find? k with
    | none => rfl
    | some a => exact absurd (List.mem_map_of_mem (find?_eq_some_iff.mp hf)) h

section Insert

theorem insert_rows {t : KeyedTable κ α} {k : κ} (a : α) (h : t.find? k = none) :
    (t.insert k a).rows = t.rows ++ [(k, a)] := by
  rw [insert, dif_neg (find?_eq_none_iff.mp h)]

theorem find?_insert {t : KeyedTable κ α} {k : κ} (a : α) (h : t.find? k = none) (j : κ) :
    (t.insert k a).find? j = if j = k then some a else t.find? j := by
  apply Option.ext
  intro b
  rw [find?_eq_some_iff, insert_rows a h, List.mem_append, List.mem_singleton, Prod.mk.injEq]
  by_cases hj : j = k
  · subst hj
    have hn : (j, b) ∉ t.rows := fun hm => by
      rw [find?_eq_some_iff.mpr hm] at h
      cases h
    simp [hn, eq_comm]
  · simp [hj, find?_eq_some_iff]

theorem sum_insert (w : α → M) {t : KeyedTable κ α} {k : κ} (a : α) (h : t.find? k = none) :
    (t.insert k a).sum w = t.sum w + w a := by simp [sum, insert_rows a h]

end Insert

section Update

theorem find?_update (t : KeyedTable κ α) (k : κ) (f : α → α) (j : κ) :
    (t.update k f).find? j = if j = k then (t.find? j).map f else t.find? j := by
  apply Option.ext
  intro b
  simp only [find?_eq_some_iff, update, List.mem_map, Prod.exists]
  by_cases hj : j = k
  · subst hj
    simp only [if_true, Option.map_eq_some_iff, find?_eq_some_iff]
    constructor
    · rintro ⟨i, a, hm, he⟩
      by_cases hi : i = j
      · subst hi
        exact ⟨a, hm, by simpa using he⟩
      · simp [hi] at he
    · rintro ⟨a, hm, rfl⟩
      exact ⟨j, a, hm, by simp⟩
  · simp only [if_neg hj, find?_eq_some_iff]
    constructor
    · rintro ⟨i, a, hm, he⟩
      by_cases hi : i = k
      · simp [hi] at he
        exact absurd he.1.symm hj
      · rw [if_neg hi, Prod.mk.injEq] at he
        exact he.1 ▸ he.2 ▸ hm
    · intro hm
      exact ⟨j, b, hm, by simp [hj]⟩

theorem exists_find?_update {t : KeyedTable κ α} {k j : κ} {f : α → α} :
    (∃ a, (t.update k f).find? j = some a) ↔ ∃ a, t.find? j = some a := by
  rw [find?_update]
  by_cases h : j = k <;> simp [h]

private theorem sum_rewrite (w : α → M) {l : List (κ × α)} (hn : (l.map Prod.fst).Nodup) {k : κ}
    (f : α → α) {a : α} (h : (k, a) ∈ l) :
    ((l.map fun p => if p.1 = k then (p.1, f p.2) else p).map fun p => w p.2).sum =
      (l.map fun p => w p.2).sum + (w (f a) - w a) := by
  induction l with
  | nil => simp at h
  | cons p l ih =>
    obtain ⟨j, b⟩ := p
    simp only [List.map_cons, List.nodup_cons] at hn
    simp only [List.map_cons, List.sum_cons]
    rcases List.mem_cons.mp h with he | hm
    · obtain ⟨rfl, rfl⟩ := Prod.mk.inj he
      have hid : (l.map fun p => if p.1 = k then (p.1, f p.2) else p) = l := by
        refine List.map_congr_left (g := id) (fun p hp => ?_) |>.trans (List.map_id l)
        exact if_neg fun e => hn.1 (List.mem_map.mpr ⟨p, hp, e⟩)
      simp only [hid, if_true]
      abel
    · have hjk : j ≠ k := by
        rintro rfl
        exact hn.1 (List.mem_map.mpr ⟨_, hm, rfl⟩)
      simp only [hjk, if_false, ih hn.2 hm]
      abel

theorem sum_update (w : α → M) {t : KeyedTable κ α} {k : κ} (f : α → α) {a : α}
    (h : t.find? k = some a) : (t.update k f).sum w = t.sum w + (w (f a) - w a) :=
  sum_rewrite w t.nodup f (find?_eq_some_iff.mp h)

theorem sum_update_of_eq (w : α → M) (t : KeyedTable κ α) (k : κ) (f : α → α)
    (h : ∀ a, w (f a) = w a) : (t.update k f).sum w = t.sum w := by
  simp only [sum, update, List.map_map]
  refine congrArg List.sum (List.map_congr_left fun p _ => ?_)
  by_cases hp : p.1 = k <;> simp [hp, h]

end Update

theorem find?_filter (t : KeyedTable κ α) (keep : κ → α → Bool) (k : κ) :
    (t.filter keep).find? k = (t.find? k).filter (keep k) := by
  apply Option.ext
  intro b
  simp [find?_eq_some_iff, filter, Option.filter_eq_some_iff]

end KeyedTable
end EndstoneExchange.KeyedTables
