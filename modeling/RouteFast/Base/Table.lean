import Mathlib.Data.List.Nodup

/-! Database tables as lists of rows, looked up and written by a key column. -/

namespace Table

variable {ρ κ : Type*} [DecidableEq κ]

/-- `findOne` by a column. -/
def find (c : ρ → κ) (k : κ) (t : List ρ) : Option ρ := t.find? fun r => c r = k

/-- Writes a row under its key: over the row that has this key, or as a new row. -/
def save (c : ρ → κ) (r : ρ) : List ρ → List ρ
  | [] => [r]
  | x :: t => if c x = c r then r :: t else x :: save c r t

/-- Deletes the rows with this key. -/
def delete (c : ρ → κ) (k : κ) (t : List ρ) : List ρ := t.filter fun r => c r ≠ k

/-- `UPDATE .. SET .. WHERE key = k` -/
def update (c : ρ → κ) (k : κ) (f : ρ → ρ) (t : List ρ) : List ρ :=
  t.map fun r => if c r = k then f r else r

variable {c : ρ → κ} {k : κ} {r x : ρ} {t : List ρ}

@[simp] theorem find_nil : find c k ([] : List ρ) = none := rfl

theorem find_cons : find c k (x :: t) = if c x = k then some x else find c k t := by
  by_cases h : c x = k <;> simp [find, h]

theorem find_append_singleton :
    find c k (t ++ [r]) = (find c k t).or (if c r = k then some r else none) := by
  by_cases h : c r = k <;> simp [find, List.find?_append, h]

theorem key_of_find (h : find c k t = some r) : c r = k := by
  simpa using List.find?_some h

theorem mem_of_find (h : find c k t = some r) : r ∈ t := List.mem_of_find?_eq_some h

theorem find_eq_none_iff : find c k t = none ↔ ∀ x ∈ t, c x ≠ k := by
  simp [find, List.find?_eq_none]

@[simp] theorem find_save_self : find c (c r) (save c r t) = some r := by
  induction t with
  | nil => simp [save, find_cons]
  | cons x t ih =>
    by_cases h : c x = c r
    · simp [save, h, find_cons]
    · simp [save, h, find_cons, ih]

theorem find_save_ne (h : c r ≠ k) : find c k (save c r t) = find c k t := by
  induction t with
  | nil => simp [save, find_cons, h]
  | cons x t ih =>
    by_cases hx : c x = c r
    · simp [save, find_cons, hx, h]
    · simp only [save, hx, if_false, find_cons, ih]

theorem find_save : find c k (save c r t) = if c r = k then some r else find c k t := by
  by_cases h : c r = k
  · subst h; simp
  · simp [h, find_save_ne h]

/-- With no row under its key, a saved row is a new last row. -/
theorem save_eq_append (h : find c (c r) t = none) : save c r t = t ++ [r] := by
  induction t with
  | nil => rfl
  | cons x t ih =>
    rw [find_cons] at h
    split at h
    · cases h
    · next hx => simp [save, hx, ih h]

theorem mem_save_self : r ∈ save c r t := mem_of_find find_save_self

theorem mem_of_mem_save (h : x ∈ save c r t) : x = r ∨ x ∈ t := by
  induction t with
  | nil => exact Or.inl (by simpa [save] using h)
  | cons y t ih =>
    by_cases hy : c y = c r
    · simp only [save, hy, if_true, List.mem_cons] at h
      rcases h with h | h
      · exact Or.inl h
      · exact Or.inr (List.mem_cons_of_mem _ h)
    · simp only [save, hy, if_false, List.mem_cons] at h
      rcases h with rfl | h
      · exact Or.inr List.mem_cons_self
      · exact (ih h).imp id (List.mem_cons_of_mem _)

theorem mem_save_of_ne (hx : x ∈ t) (h : c x ≠ c r) : x ∈ save c r t := by
  induction t with
  | nil => cases hx
  | cons y t ih =>
    by_cases hy : c y = c r
    · simp only [save, hy, if_true, List.mem_cons]
      rcases List.mem_cons.1 hx with rfl | hx
      · exact absurd hy h
      · exact Or.inr hx
    · simp only [save, hy, if_false, List.mem_cons]
      rcases List.mem_cons.1 hx with rfl | hx
      · exact Or.inl rfl
      · exact Or.inr (ih hx)

/-- Saving keeps a key column without repeats so. -/
theorem nodup_save (h : (t.map c).Nodup) : ((save c r t).map c).Nodup := by
  induction t with
  | nil => simp [save]
  | cons x t ih =>
    rw [List.map_cons, List.nodup_cons] at h
    by_cases hx : c x = c r
    · simpa [save, hx] using h
    · simp only [save, hx, if_false, List.map_cons, List.nodup_cons]
      refine ⟨fun hmem => ?_, ih h.2⟩
      obtain ⟨y, hy, hyx⟩ := List.mem_map.1 hmem
      rcases mem_of_mem_save hy with rfl | hy
      · exact hx hyx.symm
      · exact h.1 (List.mem_map.2 ⟨y, hy, hyx⟩)

theorem nodup_append_of_find (h : (t.map c).Nodup) (hr : find c (c r) t = none) :
    ((t ++ [r]).map c).Nodup := save_eq_append hr ▸ nodup_save h

/-- With no repeated key, a row is found under its own key. -/
theorem find_of_mem (h : (t.map c).Nodup) (hr : r ∈ t) : find c (c r) t = some r := by
  induction t with
  | nil => cases hr
  | cons x t ih =>
    rw [List.map_cons, List.nodup_cons] at h
    rcases List.mem_cons.1 hr with rfl | hr
    · simp [find_cons]
    · have hne : c x ≠ c r := fun he => h.1 (he ▸ List.mem_map_of_mem hr)
      simp [find_cons, hne, ih h.2 hr]

/-- A column without repeats, null where `f` has no value, has each value at most once. -/
theorem length_filter_le_one {f : ρ → Option κ} (h : (t.filterMap f).Nodup) (k : κ) :
    (t.filter fun r => f r = some k).length ≤ 1 := by
  induction t with
  | nil => simp
  | cons x t ih =>
    cases hx : f x with
    | none => simpa [hx] using ih (by simpa [hx] using h)
    | some l =>
      obtain ⟨hl, ht⟩ : l ∉ t.filterMap f ∧ (t.filterMap f).Nodup := by
        simpa [hx, -List.mem_filterMap] using h
      by_cases hlk : l = k
      · subst hlk
        have hnone : (t.filter fun r => f r = some l) = [] := by
          rw [List.filter_eq_nil_iff]
          intro r hr hfr
          exact hl (List.mem_filterMap.2 ⟨r, hr, by simpa using hfr⟩)
        simp [hx, hnone]
      · simpa [hx, hlk] using ih ht

theorem length_filter_key_le_one (h : (t.map c).Nodup) (k : κ) :
    (t.filter fun r => c r = k).length ≤ 1 := by
  have hmap : t.filterMap (fun r => some (c r)) = t.map c := by
    rw [List.filterMap_eq_map']
  simpa using length_filter_le_one (f := fun r => some (c r)) (hmap ▸ h) k

theorem find_delete_self : find c k (delete c k t) = none := by
  rw [find_eq_none_iff]
  intro x hx
  simpa using (List.mem_filter.1 hx).2

theorem find_delete_ne {k' : κ} (h : k' ≠ k) : find c k' (delete c k t) = find c k' t := by
  induction t with
  | nil => rfl
  | cons x t ih =>
    by_cases hx : c x = k
    · have hx' : c x ≠ k' := fun he => h (he ▸ hx)
      rw [show delete c k (x :: t) = delete c k t by simp [delete, hx], ih, find_cons]
      simp [hx']
    · rw [show delete c k (x :: t) = x :: delete c k t by simp [delete, hx], find_cons,
        find_cons, ih]

/-- An update that leaves the key column alone changes what is found under its key only. -/
theorem find_update {f : ρ → ρ} (hf : ∀ r, c (f r) = c r) (k' : κ) :
    find c k' (update c k f t) = if k' = k then (find c k t).map f else find c k' t := by
  induction t with
  | nil => simp [update]
  | cons x t ih =>
    have hcons : update c k f (x :: t) = (if c x = k then f x else x) :: update c k f t := rfl
    rw [hcons, find_cons, ih, find_cons, find_cons]
    by_cases hx : c x = k
    · by_cases hk : k' = k
      · subst hk; simp [hx, hf]
      · have hxk : c x ≠ k' := fun he => hk (he.symm.trans hx)
        simp [hx, hf, hk, Ne.symm hk]
    · by_cases hk : k' = k
      · subst hk; simp [hx]
      · simp [hx, hk]

section TwoKeys

variable {ι : Type*} {c' : ρ → ι}

/-- Replacing a row by one that agrees with it on a second column, itself without repeats,
changes what a lookup by that column finds in the expected way. -/
theorem find_save_other [DecidableEq ι] {l : ι} (hid : (t.map c).Nodup) (hother : (t.map c').Nodup)
    (hold : find c (c r) t = some x) (hsame : c' x = c' r) :
    find c' l (save c r t) = if c' r = l then some r else find c' l t := by
  induction t with
  | nil => simp at hold
  | cons y t ih =>
    rw [List.map_cons, List.nodup_cons] at hid hother
    by_cases hy : c y = c r
    · obtain rfl : y = x := by simpa [find_cons, hy] using hold
      by_cases hl : c' r = l
      · simp [save, hy, find_cons, hl]
      · simp [save, hy, find_cons, hl, hsame]
    · have hold' : find c (c r) t = some x := by simpa [find_cons, hy] using hold
      have hyx : c' y ≠ c' r := fun he =>
        hother.1 (List.mem_map.2 ⟨x, mem_of_find hold', hsame.trans he.symm⟩)
      simp only [save, hy, if_false, find_cons, ih hid.2 hother.2 hold']
      by_cases hl : c' r = l
      · have hyl : c' y ≠ l := fun he => hyx (he.trans hl.symm)
        simp [hl, hyl]
      · simp [hl]

/-- Replacing a row leaves a column it agrees on as it is. -/
theorem map_save_of_find (hold : find c (c r) t = some x) (hsame : c' x = c' r) :
    (save c r t).map c' = t.map c' := by
  induction t with
  | nil => simp at hold
  | cons y t ih =>
    by_cases hy : c y = c r
    · obtain rfl : y = x := by simpa [find_cons, hy] using hold
      simp [save, hy, hsame]
    · have hold' : find c (c r) t = some x := by simpa [find_cons, hy] using hold
      simp [save, hy, ih hold']

theorem nodup_save_other (hother : (t.map c').Nodup)
    (hold : find c (c r) t = some x) (hsame : c' x = c' r) :
    ((save c r t).map c').Nodup := by
  rwa [map_save_of_find hold hsame]

end TwoKeys

/-- The row that a lookup without a condition returns: any row of a table with this key. -/
structure AnyRow (c : ρ → κ) where
  pick : List ρ → Option ρ
  found : ∀ {t r}, pick t = some r → find c (c r) t = some r
  eq_nil : ∀ {t}, pick t = none → t = []

namespace AnyRow

/-- `findOne`, a condition that was dropped being `none`. -/
def findOne (rows : AnyRow c) (t : List ρ) : Option κ → Option ρ
  | some k => find c k t
  | none => rows.pick t

theorem found_of_findOne {rows : AnyRow c} {condition : Option κ}
    (h : rows.findOne t condition = some r) : find c (c r) t = some r := by
  cases condition with
  | none => exact rows.found h
  | some k =>
    obtain rfl : c r = k := key_of_find h
    exact h

variable [DecidableEq ρ]

/-- The first row, and in the table `t` the row `r`. -/
def prefer (t : List ρ) (r : ρ) (h : find c (c r) t = some r) : AnyRow c where
  pick t' := if t' = t then some r else t'.head?
  found := by
    intro t' r' hr'
    by_cases ht : t' = t
    · subst ht
      obtain rfl : r = r' := by simpa using hr'
      exact h
    · cases t' with
      | nil => simp [ht] at hr'
      | cons x t' =>
        obtain rfl : x = r' := by simpa [ht] using hr'
        simp [find_cons]
  eq_nil := by
    intro t' hnone
    by_cases ht : t' = t
    · simp [ht] at hnone
    · simpa [ht] using hnone

theorem pick_prefer (t : List ρ) (r : ρ) (h : find c (c r) t = some r) :
    (prefer t r h).pick t = some r := by simp [prefer]

/-- The first row of the table. -/
def first (c : ρ → κ) : AnyRow c where
  pick := List.head?
  found := by
    intro t r hr
    cases t with
    | nil => cases hr
    | cons x t =>
      obtain rfl : x = r := by simpa using hr
      simp [find_cons]
  eq_nil := by simp

end AnyRow

end Table
