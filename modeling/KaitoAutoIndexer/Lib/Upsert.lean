import Mathlib

/-!
Replacing the first entry of a list that satisfies a test, or appending when none does.
-/

namespace KaitoAutoIndexer.Lib

variable {α : Type*}

/-- Change the first entry that passes the test `p` by `f`; append `new` if none does. -/
def upsertWith (p : α → Bool) (f : α → α) (new : α) : List α → List α
  | [] => [new]
  | a :: l => if p a then f a :: l else a :: upsertWith p f new l

variable {p : α → Bool} {f : α → α} {new : α}

/-- What an upsert leaves for a test that only the touched entries could pass. -/
lemma any_upsertWith {q : α → Bool} (hq : ∀ a, q a = true → p a = true) {b : Bool}
    (hf : ∀ a, p a = true → q (f a) = b) (hn : q new = b) (l : List α) :
    (upsertWith p f new l).any q = (b || (l.eraseP p).any q) := by
  induction l with
  | nil => simp [upsertWith, hn]
  | cons a l ih =>
    by_cases h : p a = true
    · simp [upsertWith, h, hf a h]
    · have hqa : q a = false := by
        by_contra hc
        exact h (hq a (by simpa using hc))
      simp [upsertWith, h, hqa, ih]

/-- An upsert says nothing about a test that the touched entries do not pass. -/
lemma any_upsertWith_of_not {q : α → Bool} (hp : ∀ a, p a = true → q a = false)
    (hf : ∀ a, p a = true → q (f a) = false) (hn : q new = false) (l : List α) :
    (upsertWith p f new l).any q = l.any q := by
  induction l with
  | nil => simp [upsertWith, hn]
  | cons a l ih =>
    by_cases h : p a = true
    · simp [upsertWith, h, hf a h, hp a h]
    · simp [upsertWith, h, ih]

/-- The entries that the touched ones are not among stay the same. -/
lemma filter_upsertWith_of_not {q : α → Bool} (hp : ∀ a, p a = true → q a = false)
    (hf : ∀ a, p a = true → q (f a) = false) (hn : q new = false) (l : List α) :
    (upsertWith p f new l).filter q = l.filter q := by
  induction l with
  | nil => simp [upsertWith, hn]
  | cons a l ih =>
    by_cases h : p a = true
    · simp [upsertWith, h, hf a h, hp a h]
    · simp [upsertWith, h, List.filter_cons, ih]

/-- The first entry that passes the test is the one that was changed, or the new one. -/
lemma find?_upsertWith (hf : ∀ a, p a = true → p (f a) = true) (hn : p new = true) (l : List α) :
    (upsertWith p f new l).find? p = some ((l.find? p).elim new f) := by
  induction l with
  | nil => simp [upsertWith, hn]
  | cons a l ih =>
    by_cases h : p a = true
    · simp [upsertWith, h, hf a h]
    · simp [upsertWith, h, ih]

lemma find?_upsertWith_of_not {q : α → Bool} (hp : ∀ a, p a = true → q a = false)
    (hf : ∀ a, p a = true → q (f a) = false) (hn : q new = false) (l : List α) :
    (upsertWith p f new l).find? q = l.find? q := by
  rw [← List.head?_filter, filter_upsertWith_of_not hp hf hn, List.head?_filter]

/-- An upsert that finds an entry which is as it should be changes nothing. -/
lemma upsertWith_of_find? {a : α} {l : List α} (h : l.find? p = some a) (hf : f a = a) :
    upsertWith p f new l = l := by
  induction l with
  | nil => cases h
  | cons b l ih =>
    by_cases hb : p b = true
    · rw [List.find?_cons_of_pos hb] at h
      cases h
      simp [upsertWith, hb, hf]
    · rw [List.find?_cons_of_neg hb] at h
      simp [upsertWith, hb, ih h]

/-- The entry an upsert touches is the one that is erased. -/
lemma eraseP_upsertWith (hf : ∀ a, p a = true → p (f a) = true) (hn : p new = true) (l : List α) :
    (upsertWith p f new l).eraseP p = l.eraseP p := by
  induction l with
  | nil => simp [upsertWith, hn]
  | cons a l ih =>
    by_cases h : p a = true
    · simp [upsertWith, h, hf a h]
    · simp [upsertWith, h, ih]

/-- An upsert and the erasure of an entry that it does not touch commute. -/
lemma eraseP_upsertWith_comm {q : α → Bool} (hp : ∀ a, p a = true → q a = false)
    (hf : ∀ a, p a = true → q (f a) = false) (hn : q new = false) (l : List α) :
    (upsertWith p f new l).eraseP q = upsertWith p f new (l.eraseP q) := by
  induction l with
  | nil => simp [upsertWith, hn]
  | cons a l ih =>
    by_cases h : p a = true
    · simp [upsertWith, h, hf a h, hp a h]
    · by_cases hq : q a = true <;> simp [upsertWith, h, hq, ih]

/-! ### Keyed lists -/

section key

variable {κ : Type*} [DecidableEq κ] {key : α → κ} {k : κ}

/-- The keys stay as they are, and a new one comes last. -/
lemma map_upsertWith (hf : ∀ a, key a = k → key (f a) = k) (hn : key new = k) (l : List α) :
    (upsertWith (key · == k) f new l).map key =
      if k ∈ l.map key then l.map key else l.map key ++ [k] := by
  induction l with
  | nil => simp [upsertWith, hn]
  | cons a l ih =>
    by_cases h : key a = k
    · simp [upsertWith, h, hf a h]
    · have hk : ¬ k = key a := fun he => h he.symm
      simp only [upsertWith, beq_iff_eq, h, if_false, List.map_cons, ih, List.mem_cons, hk, false_or]
      split <;> rfl

lemma nodup_upsertWith (hf : ∀ a, key a = k → key (f a) = k) (hn : key new = k) {l : List α}
    (hl : (l.map key).Nodup) : ((upsertWith (key · == k) f new l).map key).Nodup := by
  rw [map_upsertWith hf hn]
  split
  · exact hl
  · rename_i hk
    rw [List.nodup_append']
    refine ⟨hl, List.nodup_singleton k, fun a ha ha' => hk ?_⟩
    rwa [← List.mem_singleton.mp ha']

/-- An entry with another key stays where it is. -/
lemma getElem?_upsertWith {l : List α} {i : ℕ} {a : α} (hi : l[i]? = some a) (ha : key a ≠ k) :
    (upsertWith (key · == k) f new l)[i]? = some a := by
  induction l generalizing i with
  | nil => simp at hi
  | cons b l ih =>
    by_cases h : key b = k
    · cases i with
      | zero =>
        rw [List.getElem?_cons_zero, Option.some_inj] at hi
        exact absurd (hi ▸ h) ha
      | succ i => simpa [upsertWith, h] using hi
    · cases i with
      | zero => simpa [upsertWith, h] using hi
      | succ i => simpa [upsertWith, h] using ih (by simpa using hi)

end key

end KaitoAutoIndexer.Lib
