import Mathlib.Data.List.Nodup
import Fabric.Table

/-! Lookups in tables that are made from tables. Everything proved about the network further on
reads its tables through `get?` and `contains`, so that the order of entries never comes up
except where a listing is asked for. -/

namespace Fabric

variable {κ ν μ : Type} [Ord κ]

namespace Table

theorem contains_iff {t : Table κ ν} {k : κ} : t.contains k = true ↔ ∃ v, t.get? k = some v := by
  simp [contains, Option.isSome_iff_exists]

section Keys
variable [Std.LawfulEqOrd κ]

@[simp] theorem get?_map (t : Table κ ν) (f : κ → ν → μ) (k : κ) :
    (t.map f).get? k = (t.get? k).map (f k) := by
  obtain ⟨l, hl⟩ := t
  simp only [get?, map]
  clear hl
  induction l with
  | nil => rfl
  | cons e r ih =>
    simp only [List.map_cons, Entries.find?]
    split
    next hk =>
      have : k = e.1 := Std.LawfulEqOrd.eq_of_compare hk
      simp [this]
    next => exact ih

theorem mem_toList {t : Table κ ν} {k : κ} {v : ν} : (k, v) ∈ t.toList ↔ t.get? k = some v :=
  get?_eq_some_iff.symm

theorem mem_values {t : Table κ ν} {v : ν} : v ∈ t.values ↔ ∃ k, t.get? k = some v := by
  simp [values, get?_eq_some_iff, toList]

theorem nodup_keys (t : Table κ ν) : t.keys.Nodup := by
  refine List.pairwise_map.mpr (t.ascending.imp fun hlt heq => ?_)
  rw [heq] at hlt
  simp at hlt

@[simp] theorem get?_filter (t : Table κ ν) (p : κ → ν → Bool) (k : κ) :
    (t.filter p).get? k = (t.get? k).filter (p k) := by
  refine Option.ext fun v => ?_
  have hmem : (k, v) ∈ (t.filter p).toList ↔ (k, v) ∈ t.toList ∧ p k v = true := List.mem_filter
  rw [← mem_toList, hmem, mem_toList, Option.filter_eq_some_iff]

theorem mem_keys {t : Table κ ν} {k : κ} : k ∈ t.keys ↔ t.contains k = true := by
  rw [contains_iff]
  constructor
  · intro h
    obtain ⟨⟨j, v⟩, hm, rfl⟩ := List.mem_map.mp h
    exact ⟨v, get?_eq_some_iff.mpr hm⟩
  · rintro ⟨v, hv⟩
    exact List.mem_map.mpr ⟨(k, v), mem_toList.mpr hv, rfl⟩

/-- What one key alone gives rise to comes from its entry. -/
theorem flatMap_toList {β : Type} (t : Table κ ν) (k : κ) {f : κ × ν → List β}
    (h : ∀ e, e.1 ≠ k → f e = []) :
    t.toList.flatMap f = ((t.get? k).map fun v => f (k, v)).getD [] := by
  have hlist (l : List (κ × ν)) (hl : Entries.Ascending l) :
      l.flatMap f = ((Entries.find? k l).map fun v => f (k, v)).getD [] := by
    induction l with
    | nil => rfl
    | cons e r ih =>
      obtain ⟨hbefore, hr⟩ := List.pairwise_cons.mp hl
      rw [List.flatMap_cons, ih hr]
      by_cases hk : k = e.1
      · subst hk
        simp [Entries.find?, Entries.find?_eq_none_of_lt hbefore]
      · simp [Entries.find?, hk, h e (Ne.symm hk)]
  exact hlist t.toList t.ascending

end Keys

variable [Std.TransOrd κ] [Std.LawfulEqOrd κ]

theorem isEmpty_iff {t : Table κ ν} : t.isEmpty = true ↔ ∀ k, t.get? k = none := by
  constructor
  · intro h k
    obtain ⟨l, hl⟩ := t
    have : l = [] := List.isEmpty_iff.mp h
    subst this
    rfl
  · intro h
    have : t = ∅ := ext_get? fun k => by rw [h k, get?_empty]
    subst this
    rfl

theorem modify_of_get? {t : Table κ ν} {k : κ} {v : ν} (h : t.get? k = some v) (f : ν → ν) :
    t.modify k f = t.insert k (f v) := by
  rw [modify, h]

variable [DecidableEq κ]

@[simp] theorem get?_modify (t : Table κ ν) (k j : κ) (f : ν → ν) :
    (t.modify k f).get? j = if j = k then (t.get? k).map f else t.get? j := by
  unfold modify
  cases h : t.get? k with
  | none =>
    by_cases hj : j = k
    · subst hj; simp [h]
    · simp [hj]
  | some v => by_cases hj : j = k <;> simp [hj]

@[simp] theorem insert_insert (t : Table κ ν) (k : κ) (u v : ν) : (t.insert k u).insert k v = t.insert k v := by
  refine ext_get? fun j => ?_
  rw [get?_insert, get?_insert, get?_insert]
  split <;> rfl

theorem upsert_upsert (t : Table κ ν) (k : κ) (d : ν) (f g : ν → ν) :
    (t.upsert k d f).upsert k d g = t.upsert k d fun v => g (f v) := by
  rw [upsert, upsert, insert_insert, get?_insert_self]
  rfl

theorem insert_of_get? {t : Table κ ν} {k : κ} {v : ν} (h : t.get? k = some v) : t.insert k v = t := by
  refine ext_get? fun j => ?_
  rw [get?_insert]
  split
  next hj => rw [hj, h]
  next => rfl

theorem upsert_of_get? {t : Table κ ν} {k : κ} {d v : ν} {f : ν → ν} (h : t.get? k = some v) (hf : f v = v) :
    t.upsert k d f = t := by
  rw [upsert, h, Option.getD_some, hf, insert_of_get? h]

theorem contains_upsert (t : Table κ ν) (k j : κ) (d : ν) (f : ν → ν) :
    (t.upsert k d f).contains j = (decide (j = k) || t.contains j) := by
  by_cases h : j = k <;> simp [contains, get?_upsert, h]

theorem isEmpty_insert (t : Table κ ν) (k : κ) (v : ν) : (t.insert k v).isEmpty = false := by
  rw [← Bool.not_eq_true, isEmpty_iff]
  intro h
  simpa using h k

theorem isEmpty_foldl_insert {l : List (κ × ν)} {t : Table κ ν}
    (h : (l.foldl (fun t e => t.insert e.1 e.2) t).isEmpty = true) : l = [] := by
  rcases List.eq_nil_or_concat l with hl | ⟨r, e, rfl⟩
  · exact hl
  · rw [List.concat_eq_append, List.foldl_append, List.foldl_cons, List.foldl_nil, isEmpty_insert] at h
    cases h

theorem mem_of_get?_foldl_insert {l : List (κ × ν)} {t : Table κ ν} {k : κ} {v : ν}
    (h : (l.foldl (fun t e => t.insert e.1 e.2) t).get? k = some v) :
    (k, v) ∈ l ∨ t.get? k = some v := by
  induction l generalizing t with
  | nil => exact .inr h
  | cons e r ih =>
    rcases ih h with hr | ht
    · exact .inl (List.mem_cons_of_mem e hr)
    · rw [get?_insert] at ht
      split at ht
      next hk =>
        cases ht
        exact .inl (hk ▸ List.mem_cons_self)
      next => exact .inr ht

theorem contains_foldl_insert {l : List (κ × ν)} {t : Table κ ν} {k : κ} :
    (l.foldl (fun t e => t.insert e.1 e.2) t).contains k = true ↔
      k ∈ l.map (·.1) ∨ t.contains k = true := by
  induction l generalizing t with
  | nil => simp
  | cons e r ih =>
    rw [List.foldl_cons, ih, List.map_cons, List.mem_cons]
    by_cases h : k = e.1 <;> simp [contains, h]

theorem mem_of_get?_ofList {l : List (κ × ν)} {k : κ} {v : ν} (h : (ofList l).get? k = some v) :
    (k, v) ∈ l := by
  rcases mem_of_get?_foldl_insert h with hl | hempty
  · exact hl
  · cases hempty

theorem contains_ofList {l : List (κ × ν)} {k : κ} :
    (ofList l).contains k = true ↔ k ∈ l.map (·.1) := by
  rw [ofList, contains_foldl_insert]
  simp [contains]

/-- Entries under keys of their own are all listed, and nothing else is. -/
theorem perm_toList_ofList {l : List (κ × ν)} (h : (l.map (·.1)).Nodup) : (ofList l).toList.Perm l := by
  have hlisted : (ofList l).toList.Nodup := List.Nodup.of_map Prod.fst (ofList l).nodup_keys
  refine (List.perm_ext_iff_of_nodup hlisted (List.Nodup.of_map Prod.fst h)).mpr ?_
  rintro ⟨k, v⟩
  rw [mem_toList]
  constructor
  · exact mem_of_get?_ofList
  · intro hv
    obtain ⟨v', hv'⟩ := contains_iff.mp (contains_ofList.mpr (List.mem_map_of_mem (f := Prod.fst) hv))
    cases List.inj_on_of_nodup_map h hv (mem_of_get?_ofList hv') rfl
    exact hv'

/-- Entries that stay at their keys or go. -/
theorem get?_ofList_filterMap {t : Table κ ν} {f : κ × ν → Option (κ × μ)}
    (hf : ∀ k x e, f (k, x) = some e → e.1 = k) {k : κ} {v : μ} :
    (ofList (t.toList.filterMap f)).get? k = some v ↔ ∃ x, t.get? k = some x ∧ f (k, x) = some (k, v) := by
  have hmem {v : μ} : (k, v) ∈ t.toList.filterMap f ↔ ∃ x, t.get? k = some x ∧ f (k, x) = some (k, v) := by
    rw [List.mem_filterMap]
    constructor
    · rintro ⟨⟨k', x⟩, hx, he⟩
      obtain rfl : k = k' := hf k' x _ he
      exact ⟨x, mem_toList.mp hx, he⟩
    · rintro ⟨x, hx, he⟩
      exact ⟨(k, x), mem_toList.mpr hx, he⟩
  refine ⟨fun h => hmem.mp (mem_of_get?_ofList h), fun h => ?_⟩
  have hcontains : (ofList (t.toList.filterMap f)).contains k = true :=
    contains_ofList.mpr (List.mem_map_of_mem (f := Prod.fst) (hmem.mpr h))
  obtain ⟨v', hv'⟩ := contains_iff.mp hcontains
  obtain ⟨x, hx, he⟩ := h
  obtain ⟨x', hx', he'⟩ := hmem.mp (mem_of_get?_ofList hv')
  cases hx.symm.trans hx'
  cases he.symm.trans he'
  exact hv'

/-- A table is made again of its entries. -/
theorem ofList_toList (t : Table κ ν) : ofList t.toList = t := by
  refine ext_get? fun k => Option.ext fun v => ?_
  have hsame := get?_ofList_filterMap (t := t) (f := some) (fun k x e he => by cases he; rfl) (k := k) (v := v)
  rw [List.filterMap_some] at hsame
  rw [hsame]
  simp

theorem get?_foldl_insert {l : List (κ × ν)} (h : Entries.Ascending l) (t : Table κ ν) (k : κ) :
    (l.foldl (fun t e => t.insert e.1 e.2) t).get? k = (Entries.find? k l).or (t.get? k) := by
  induction l generalizing t with
  | nil => rfl
  | cons e r ih =>
    have hr := List.pairwise_cons.mp h
    rw [List.foldl_cons, ih hr.2, get?_insert]
    by_cases hk : k = e.1
    · subst hk
      simp [Entries.find?, Entries.find?_eq_none_of_lt hr.1]
    · simp [Entries.find?, hk]

theorem get?_override (t u : Table κ ν) (k : κ) :
    (t.override u).get? k = (u.get? k).or (t.get? k) :=
  get?_foldl_insert u.ascending t k

theorem get?_ofList_const (l : List κ) (v : ν) (k : κ) :
    (ofList (l.map fun k => (k, v))).get? k = if k ∈ l then some v else none := by
  have hcontains := contains_ofList (l := l.map fun k => (k, v)) (k := k)
  simp only [List.map_map, Function.comp_def, List.map_id'] at hcontains
  split
  next hk =>
    obtain ⟨v', hv'⟩ := contains_iff.mp (hcontains.mpr hk)
    obtain ⟨k', -, he⟩ := List.mem_map.mp (mem_of_get?_ofList hv')
    cases he
    exact hv'
  next hk => simpa [contains] using mt hcontains.mp hk

end Table

namespace KeySet

variable [Std.TransOrd κ] [Std.LawfulEqOrd κ]

theorem ext_contains {s t : KeySet κ} (h : ∀ k, s.contains k = true ↔ t.contains k = true) : s = t := by
  refine Table.ext_get? fun k => ?_
  have hk := Bool.eq_iff_iff.mpr (h k)
  unfold Table.contains at hk
  cases hs : s.get? k <;> cases ht : t.get? k <;> simp_all

variable [DecidableEq κ]

@[simp] theorem contains_add (s : KeySet κ) (k j : κ) :
    (s.add k).contains j = (decide (j = k) || s.contains j) := by
  by_cases h : j = k <;> simp [Table.contains, h]

@[simp] theorem contains_foldl_add (l : List κ) (s : KeySet κ) (k : κ) :
    (l.foldl add s).contains k = (decide (k ∈ l) || s.contains k) := by
  induction l generalizing s with
  | nil => simp
  | cons a r ih =>
    rw [List.foldl_cons, ih, contains_add]
    by_cases h : k = a <;> simp [h]

@[simp] theorem contains_ofList (l : List κ) (k : κ) : (ofList l).contains k = decide (k ∈ l) := by
  rw [ofList, contains_foldl_add]
  simp [Table.contains]

@[simp] theorem contains_union (s t : KeySet κ) (k : κ) :
    (s.union t).contains k = (s.contains k || t.contains k) := by
  rw [union, contains_foldl_add, Bool.or_comm]
  congr 1
  by_cases h : t.contains k <;> simp [Table.mem_keys, h]

end KeySet
end Fabric
