import Mathlib

/-!
Lists sent off in batches. Elements wait in a queue, which is sent off as soon as it is full, and
once more at the end; or a list is cut from its front.
-/

namespace KaitoAutoIndexer.Lib.Batches

variable {α : Type} {n : ℕ} {xs new pending : List α} {sent batches : List (List α)}

/-- The batches hold the elements in order. None is empty, and all but the last one are full. -/
structure Batched (n : ℕ) (xs : List α) (batches : List (List α)) : Prop where
  flatten : batches.flatten = xs
  ne_nil : ∀ b ∈ batches, b ≠ []
  full : ∀ b ∈ batches.dropLast, b.length = n
  le : ∀ b ∈ batches, b.length ≤ n

/-! ### Queues -/

/-- What is sent off when the queue holds at least `n`. -/
def flushed (n : ℕ) (pending : List α) : List (List α) := if n ≤ pending.length then [pending] else []

/-- What waits after that. -/
def kept (n : ℕ) (pending : List α) : List α := if n ≤ pending.length then [] else pending

/-- The elements so far: full batches are sent, the rest waits. -/
structure Filling (n : ℕ) (xs : List α) (sent : List (List α)) (pending : List α) : Prop where
  flatten : sent.flatten ++ pending = xs
  full : ∀ b ∈ sent, b.length = n
  lt : pending.length < n

lemma filling_nil (hn : 0 < n) : Filling n ([] : List α) [] [] := ⟨rfl, List.forall_mem_nil _, hn⟩

/-- One more element at most joins the queue, which is sent off if it is full then. -/
lemma Filling.push (h : Filling n xs sent pending) (hnew : new.length ≤ 1) :
    Filling n (xs ++ new) (sent ++ flushed n (pending ++ new)) (kept n (pending ++ new)) := by
  have hlt := h.lt
  unfold flushed kept
  by_cases hfull : n ≤ (pending ++ new).length
  · have hlen : (pending ++ new).length = n := by
      rw [List.length_append] at hfull ⊢
      omega
    rw [if_pos hfull, if_pos hfull]
    refine ⟨?_, List.forall_mem_append.mpr ⟨h.full, List.forall_mem_singleton.mpr hlen⟩, ?_⟩
    · rw [List.flatten_append, List.flatten_singleton, List.append_nil, ← List.append_assoc, h.flatten]
    · rw [List.length_nil]
      omega
  · rw [if_neg hfull, if_neg hfull, List.append_nil]
    exact ⟨by rw [← List.append_assoc, h.flatten], h.full, not_le.mp hfull⟩

/-- At the end, what waits is the last batch. -/
lemma Filling.finish (h : Filling n xs sent pending) : Batched n xs (sent ++ flushed 1 pending) := by
  have hlt := h.lt
  have hsent : ∀ b ∈ sent, b ≠ [] := by
    rintro b hb rfl
    have hlen := h.full [] hb
    rw [List.length_nil] at hlen
    omega
  unfold flushed
  by_cases hne : 1 ≤ pending.length
  · rw [if_pos hne]
    refine ⟨?_, ?_, ?_, ?_⟩
    · rw [List.flatten_append, List.flatten_singleton, h.flatten]
    · exact List.forall_mem_append.mpr
        ⟨hsent, List.forall_mem_singleton.mpr (List.ne_nil_of_length_pos hne)⟩
    · rw [List.dropLast_concat]
      exact h.full
    · exact List.forall_mem_append.mpr ⟨fun b hb => (h.full b hb).le, List.forall_mem_singleton.mpr hlt.le⟩
  · have hnil : pending = [] := List.length_eq_zero_iff.mp (by omega)
    rw [if_neg hne, List.append_nil]
    refine ⟨?_, hsent, fun b hb => h.full b (List.mem_of_mem_dropLast hb), fun b hb => (h.full b hb).le⟩
    rw [← h.flatten, hnil, List.append_nil]

/-! ### Cut from the front -/

lemma batched_nil : Batched n ([] : List α) [] :=
  ⟨rfl, List.forall_mem_nil _, List.forall_mem_nil _, List.forall_mem_nil _⟩

lemma Batched.cut (hn : 0 < n) (hne : xs ≠ []) (h : Batched n (xs.drop n) batches) :
    Batched n xs (xs.take n :: batches) := by
  have hpos := List.length_pos_iff.mpr hne
  refine ⟨?_, List.forall_mem_cons.mpr ⟨?_, h.ne_nil⟩, ?_, List.forall_mem_cons.mpr ⟨?_, h.le⟩⟩
  · rw [List.flatten_cons, h.flatten, List.take_append_drop]
  · exact List.ne_nil_of_length_pos (by rw [List.length_take]; omega)
  · cases batches with
    | nil => exact List.forall_mem_nil _
    | cons b batches =>
      -- there is a next batch, so the list goes on behind the first one
      have hnext : 0 < (xs.drop n).length := by
        rw [← h.flatten, List.flatten_cons, List.length_append]
        have hb := List.length_pos_iff.mpr (h.ne_nil b List.mem_cons_self)
        omega
      rw [List.length_drop] at hnext
      rw [List.dropLast_cons_of_ne_nil (List.cons_ne_nil b batches)]
      refine List.forall_mem_cons.mpr ⟨?_, h.full⟩
      rw [List.length_take]
      omega
  · rw [List.length_take]
    omega

end KaitoAutoIndexer.Lib.Batches
