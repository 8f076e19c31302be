import Mathlib

/-!
A list of entries read as a table: the values its entries have at each key, and how the table
changes when one entry is replaced by another. Then tables as functions, changed at a few keys
by each of a list of steps.
-/

namespace KaitoAutoIndexer.Lib

variable {α κ β : Type*} [DecidableEq κ] (key : α → κ) (val : α → β)

/-- The values at `k`, in list order. -/
def valuesAt (l : List α) (k : κ) : List β := (l.filter (key · = k)).map val

variable {key val}

@[simp] lemma valuesAt_nil (k : κ) : valuesAt key val [] k = [] := rfl

@[simp] lemma valuesAt_append (l l' : List α) (k : κ) :
    valuesAt key val (l ++ l') k = valuesAt key val l k ++ valuesAt key val l' k := by
  simp [valuesAt]

lemma valuesAt_cons (a : α) (l : List α) (k : κ) :
    valuesAt key val (a :: l) k = (if key a = k then [val a] else []) ++ valuesAt key val l k := by
  by_cases h : key a = k <;> simp [valuesAt, h]

lemma valuesAt_eq_nil_iff {l : List α} {k : κ} :
    valuesAt key val l k = [] ↔ ∀ a ∈ l, key a ≠ k := by
  simp [valuesAt, List.filter_eq_nil_iff]

/-- Entry `a` is replaced by `b`. If `a` is the only entry at its key, and `b` stays there or
goes to a key without entries, then `b` is the only one at its key afterwards, no entry is
left at the old key, and nothing changes elsewhere. -/
lemma valuesAt_move {l₁ l₂ : List α} {a b : α} {v : β}
    (ha : valuesAt key val (l₁ ++ a :: l₂) (key a) = [v])
    (hb : key b = key a ∨ valuesAt key val (l₁ ++ a :: l₂) (key b) = []) (k : κ) :
    valuesAt key val (l₁ ++ b :: l₂) k =
      if k = key b then [val b] else if k = key a then []
      else valuesAt key val (l₁ ++ a :: l₂) k := by
  have hsides : valuesAt key val l₁ (key a) = [] ∧ valuesAt key val l₂ (key a) = [] := by
    simp only [valuesAt_append, valuesAt_cons, if_true, List.singleton_append] at ha
    have hlen := congrArg List.length ha
    simp only [List.length_append, List.length_cons, List.length_nil] at hlen
    exact ⟨List.length_eq_zero_iff.mp (by omega), List.length_eq_zero_iff.mp (by omega)⟩
  have hnone : valuesAt key val l₁ (key b) = [] ∧ valuesAt key val l₂ (key b) = [] := by
    rcases hb with hb | hb
    · rwa [hb]
    · simp only [valuesAt_append, valuesAt_cons, List.append_eq_nil_iff] at hb
      exact ⟨hb.1, hb.2.2⟩
  simp only [valuesAt_append, valuesAt_cons]
  by_cases hkb : k = key b
  · subst hkb
    simp [hnone]
  · by_cases hka : k = key a
    · subst hka
      simp [hsides, hkb, Ne.symm hkb]
    · simp [hkb, hka, Ne.symm hkb, Ne.symm hka]

/-! ### Steps that change a table at a few keys -/

/-- `f` changes a table at the keys `ks` only, and there by what the table has at the key. -/
structure ChangesAt (ks : List κ) (f : (κ → β) → κ → β) : Prop where
  frame : ∀ g k, k ∉ ks → f g k = g k
  congr : ∀ {g g' k}, g k = g' k → f g k = f g' k

variable {ι : Type*} {keys : ι → List κ} {f : ι → (κ → β) → κ → β}

omit [DecidableEq κ] in
lemma foldl_changes_of_notMem (hf : ∀ i, ChangesAt (keys i) (f i)) {l : List ι} (g : κ → β) {k : κ}
    (hk : k ∉ l.flatMap keys) : l.foldl (fun g i => f i g) g k = g k := by
  induction l generalizing g with
  | nil => rfl
  | cons i l ih =>
    simp only [List.flatMap_cons, List.mem_append, not_or] at hk
    exact (ih (f i g) hk.2).trans ((hf i).frame g k hk.1)

omit [DecidableEq κ] in
/-- With no key shared between two steps, each key is changed by its own step only. -/
lemma foldl_changes_of_mem (hf : ∀ i, ChangesAt (keys i) (f i)) {l : List ι}
    (hl : (l.flatMap keys).Nodup) (g : κ → β) {i : ι} (hi : i ∈ l) {k : κ} (hk : k ∈ keys i) :
    l.foldl (fun g i => f i g) g k = f i g k := by
  induction l generalizing g with
  | nil => cases hi
  | cons j l ih =>
    rw [List.flatMap_cons, List.nodup_append'] at hl
    rcases List.mem_cons.mp hi with rfl | hi
    · exact foldl_changes_of_notMem hf _ (hl.2.2 hk)
    · have hkl : k ∈ l.flatMap keys := List.mem_flatMap.mpr ⟨i, hi, hk⟩
      refine (ih hl.2.1 (f j g) hi).trans ((hf i).congr ?_)
      exact (hf j).frame g k fun hkj => hl.2.2 hkj hkl

end KaitoAutoIndexer.Lib
