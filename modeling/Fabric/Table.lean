/-! Tables: finite maps kept in strictly ascending key order. The order makes the
representation canonical, so two tables with the same contents are the same value
(`Table.ext_get?`), and whatever is listed from a table comes out in key order. -/

namespace Fabric

variable {κ ν μ : Type} [Ord κ]

namespace Entries

def find? (k : κ) : List (κ × ν) → Option ν
  | [] => none
  | e :: r => if compare k e.1 = .eq then some e.2 else find? k r

def put (k : κ) (v : ν) : List (κ × ν) → List (κ × ν)
  | [] => [(k, v)]
  | e :: r =>
    match compare k e.1 with
    | .lt => (k, v) :: e :: r
    | .eq => (k, v) :: r
    | .gt => e :: put k v r

def Ascending (l : List (κ × ν)) : Prop := l.Pairwise (fun a b => compare a.1 b.1 = .lt)

theorem mem_put {k : κ} {v : ν} {x : κ × ν} {l : List (κ × ν)} (h : x ∈ put k v l) :
    x = (k, v) ∨ x ∈ l := by
  induction l with
  | nil => simpa [put] using h
  | cons e r ih =>
    unfold put at h
    split at h <;> simp only [List.mem_cons] at h ⊢ <;> grind

theorem find?_eq_none_of_lt {k : κ} {l : List (κ × ν)} (h : ∀ x ∈ l, compare k x.1 = .lt) :
    find? k l = none := by
  induction l with
  | nil => rfl
  | cons e r ih =>
    have he := h e (by simp)
    simp [find?, he, ih fun x hx => h x (by simp [hx])]

section Keys
variable [Std.LawfulEqOrd κ]

theorem find?_put [DecidableEq κ] (k j : κ) (v : ν) (l : List (κ × ν)) :
    find? j (put k v l) = if j = k then some v else find? j l := by
  induction l with
  | nil => by_cases h : j = k <;> simp [put, find?, h]
  | cons e r ih =>
    unfold put
    split
    next => by_cases h : j = k <;> simp [find?, h]
    next hk =>
      have hk : k = e.1 := Std.LawfulEqOrd.eq_of_compare hk
      by_cases h : j = k
      · simp [find?, h]
      · simp [find?, h, ← hk]
    next hk =>
      have hne : k ≠ e.1 := by
        rintro rfl
        simp at hk
      by_cases h : j = k
      · subst h
        simp [find?, hne, ih]
      · simp [find?, h, ih]

theorem find?_filter_ne [DecidableEq κ] (k j : κ) (l : List (κ × ν)) :
    find? j (l.filter (fun e => e.1 ≠ k)) = if j = k then none else find? j l := by
  induction l with
  | nil => simp [find?]
  | cons e r ih =>
    by_cases he : e.1 = k <;> by_cases hj : j = k <;> simp_all [find?]
    · intro h; exact absurd h.symm (he ∘ (h ▸ ·))

theorem find?_eq_some_iff {k : κ} {v : ν} {l : List (κ × ν)} (h : Ascending l) :
    find? k l = some v ↔ (k, v) ∈ l := by
  induction l with
  | nil => simp [find?]
  | cons e r ih =>
    have hr := List.pairwise_cons.mp h
    by_cases hk : k = e.1
    · subst hk
      have hn : (e.1, v) ∉ r := fun hm => by simpa using hr.1 _ hm
      simp [find?, hn, Prod.ext_iff, eq_comm]
    · simp [find?, hk, ih hr.2, Prod.ext_iff]

end Keys

section Laws
variable [Std.TransOrd κ] [Std.LawfulEqOrd κ]

theorem ascending_put (k : κ) (v : ν) {l : List (κ × ν)} (h : Ascending l) :
    Ascending (put k v l) := by
  induction l with
  | nil => simp [put, Ascending]
  | cons e r ih =>
    have hr := List.pairwise_cons.mp h
    unfold put
    split
    next hk =>
      refine List.pairwise_cons.mpr ⟨fun x hx => ?_, h⟩
      rcases List.mem_cons.mp hx with rfl | hx
      · exact hk
      · exact Std.TransCmp.lt_trans hk (hr.1 x hx)
    next hk =>
      have : k = e.1 := Std.LawfulEqOrd.eq_of_compare hk
      subst this
      exact List.pairwise_cons.mpr ⟨fun x hx => hr.1 x hx, hr.2⟩
    next hk =>
      refine List.pairwise_cons.mpr ⟨fun x hx => ?_, ih hr.2⟩
      rcases mem_put hx with rfl | hx
      · exact Std.OrientedCmp.gt_iff_lt.mp hk
      · exact hr.1 x hx

theorem eq_of_find?_eq {l m : List (κ × ν)} (hl : Ascending l) (hm : Ascending m)
    (h : ∀ k, find? k l = find? k m) : l = m := by
  induction l generalizing m with
  | nil =>
    cases m with
    | nil => rfl
    | cons e r => have := h e.1; simp [find?] at this
  | cons e r ih =>
    cases m with
    | nil => have := h e.1; simp [find?] at this
    | cons f s =>
      have hr := List.pairwise_cons.mp hl
      have hs := List.pairwise_cons.mp hm
      have key : e.1 = f.1 := by
        match hc : compare e.1 f.1 with
        | .eq => exact Std.LawfulEqOrd.eq_of_compare hc
        | .lt =>
          have := h e.1
          simp [find?, hc, find?_eq_none_of_lt fun x hx => Std.TransCmp.lt_trans hc (hs.1 x hx)] at this
        | .gt =>
          have hc := Std.OrientedCmp.gt_iff_lt.mp hc
          have := h f.1
          simp [find?, hc, find?_eq_none_of_lt fun x hx => Std.TransCmp.lt_trans hc (hr.1 x hx)] at this
      have val : e.2 = f.2 := by have := h e.1; simpa [find?, key] using this
      have hef : e = f := Prod.ext key val
      subst hef
      congr 1
      refine ih hr.2 hs.2 fun k => ?_
      by_cases hk : k = e.1
      · subst hk
        rw [find?_eq_none_of_lt hr.1, find?_eq_none_of_lt hs.1]
      · have := h k
        simpa [find?, hk] using this

end Laws
end Entries

/-- A finite map, listed in strictly ascending key order. -/
structure Table (κ : Type) (ν : Type) [Ord κ] where
  entries : List (κ × ν)
  ascending : Entries.Ascending entries

namespace Table

instance [DecidableEq κ] [DecidableEq ν] : DecidableEq (Table κ ν) := fun s t =>
  if h : s.entries = t.entries then
    isTrue (by cases s; cases t; cases h; rfl)
  else isFalse fun e => h (e ▸ rfl)

def empty : Table κ ν := ⟨[], .nil⟩

instance : EmptyCollection (Table κ ν) := ⟨empty⟩
instance : Inhabited (Table κ ν) := ⟨empty⟩

def get? (t : Table κ ν) (k : κ) : Option ν := Entries.find? k t.entries

@[simp] theorem get?_empty (k : κ) : (∅ : Table κ ν).get? k = none := rfl

def contains (t : Table κ ν) (k : κ) : Bool := (t.get? k).isSome

def toList (t : Table κ ν) : List (κ × ν) := t.entries

def keys (t : Table κ ν) : List κ := t.entries.map (·.1)

def values (t : Table κ ν) : List ν := t.entries.map (·.2)

def size (t : Table κ ν) : Nat := t.entries.length

def isEmpty (t : Table κ ν) : Bool := t.entries.isEmpty

def erase [DecidableEq κ] (t : Table κ ν) (k : κ) : Table κ ν :=
  ⟨t.entries.filter (fun e => e.1 ≠ k), t.ascending.filter _⟩

def filter (t : Table κ ν) (p : κ → ν → Bool) : Table κ ν :=
  ⟨t.entries.filter (fun e => p e.1 e.2), t.ascending.filter _⟩

/-- Changes the values and keeps the keys. -/
def map (t : Table κ ν) (f : κ → ν → μ) : Table κ μ :=
  ⟨t.entries.map (fun e => (e.1, f e.1 e.2)), by
    rw [Entries.Ascending, List.pairwise_map]
    exact t.ascending⟩

section Keys
variable [Std.LawfulEqOrd κ]

@[simp] theorem get?_erase [DecidableEq κ] (t : Table κ ν) (k j : κ) :
    (t.erase k).get? j = if j = k then none else t.get? j :=
  Entries.find?_filter_ne k j t.entries

theorem get?_eq_some_iff {t : Table κ ν} {k : κ} {v : ν} :
    t.get? k = some v ↔ (k, v) ∈ t.toList :=
  Entries.find?_eq_some_iff t.ascending

end Keys

section Laws
variable [Std.TransOrd κ] [Std.LawfulEqOrd κ]

def insert (t : Table κ ν) (k : κ) (v : ν) : Table κ ν :=
  ⟨Entries.put k v t.entries, Entries.ascending_put k v t.ascending⟩

/-- Changes the entry at `k`, starting from `d` when there is none. -/
def upsert (t : Table κ ν) (k : κ) (d : ν) (f : ν → ν) : Table κ ν :=
  t.insert k (f ((t.get? k).getD d))

/-- Changes the entry at `k` when there is one. -/
def modify (t : Table κ ν) (k : κ) (f : ν → ν) : Table κ ν :=
  match t.get? k with
  | some v => t.insert k (f v)
  | none => t

/-- Of several entries with one key the last stays. -/
def ofList (l : List (κ × ν)) : Table κ ν := l.foldl (fun t e => t.insert e.1 e.2) ∅

/-- Puts the entries of `u` over those of `t`. -/
def override (t u : Table κ ν) : Table κ ν := u.entries.foldl (fun t e => t.insert e.1 e.2) t

@[simp] theorem get?_insert [DecidableEq κ] (t : Table κ ν) (k j : κ) (v : ν) :
    (t.insert k v).get? j = if j = k then some v else t.get? j :=
  Entries.find?_put k j v t.entries

theorem get?_insert_self [DecidableEq κ] (t : Table κ ν) (k : κ) (v : ν) :
    (t.insert k v).get? k = some v := by
  simp

theorem get?_upsert [DecidableEq κ] (t : Table κ ν) (k j : κ) (d : ν) (f : ν → ν) :
    (t.upsert k d f).get? j = if j = k then some (f ((t.get? k).getD d)) else t.get? j := by
  simp [upsert]

/-- Tables that answer every lookup alike are equal. -/
theorem ext_get? {s t : Table κ ν} (h : ∀ k, s.get? k = t.get? k) : s = t := by
  have := Entries.eq_of_find?_eq s.ascending t.ascending h
  cases s; cases t; cases this; rfl

end Laws
end Table

/-- A finite set, listed in ascending order. -/
abbrev KeySet (κ : Type) [Ord κ] := Table κ Unit

namespace KeySet
variable [Std.TransOrd κ] [Std.LawfulEqOrd κ]

def add (s : KeySet κ) (k : κ) : KeySet κ := Table.insert s k ()

def ofList (l : List κ) : KeySet κ := l.foldl add ∅

def union (s t : KeySet κ) : KeySet κ := t.keys.foldl add s

@[simp] theorem get?_add [DecidableEq κ] (s : KeySet κ) (k j : κ) :
    (s.add k).get? j = if j = k then some () else s.get? j :=
  Table.get?_insert s k j ()

end KeySet
end Fabric
