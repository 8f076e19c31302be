import Mathlib

/-!
Pieces joined with a separator between them, and the joined text cut again. A piece may end in the
middle of a separator, so it is not enough that no piece has one in it.
-/

namespace KaitoAutoIndexer.Lib.Separated

variable {α : Type} {sep s t t' x x' : List α} {pieces : List (List α)}

/-! ### Pieces -/

/-- No piece has a separator in it, also not with the beginning of the separator that follows. -/
def Apart (sep : List α) : List (List α) → Prop
  | [] => False
  | [x] => ¬ sep <:+: x
  | x :: y :: pieces => ¬ sep <:+: x ++ sep.dropLast ∧ Apart sep (y :: pieces)

/-- For a separator of one element it is enough that it is in no piece. -/
lemma apart_singleton {a : α} : Apart [a] pieces ↔ pieces ≠ [] ∧ ∀ x ∈ pieces, a ∉ x := by
  have hnot : ∀ x : List α, ¬ [a] <:+: x ↔ a ∉ x := fun x => not_congr (List.singleton_infix_iff a x)
  induction pieces with
  | nil => simp [Apart]
  | cons x pieces ih =>
    cases pieces with
    | nil => simpa [Apart] using hnot x
    | cons y pieces =>
      have hx : ¬ [a] <:+: x ++ [a].dropLast ↔ a ∉ x := by simpa using hnot x
      have happart : Apart [a] (x :: y :: pieces) ↔ a ∉ x ∧ Apart [a] (y :: pieces) := and_congr_left' hx
      refine happart.trans ((and_congr_right' ih).trans ?_)
      simp

lemma Apart.not_within (h : Apart sep pieces) (hx : x ∈ pieces) : ¬ sep <:+: x := by
  induction pieces with
  | nil => cases hx
  | cons y pieces ih =>
    cases pieces with
    | nil =>
      obtain rfl := List.mem_singleton.mp hx
      exact h
    | cons z pieces =>
      rcases List.mem_cons.mp hx with rfl | hx
      · exact fun hin => h.1 (hin.trans (List.prefix_append ..).isInfix)
      · exact ih h.2 hx

lemma prefix_intercalate (sep x : List α) (pieces : List (List α)) :
    x <+: sep.intercalate (x :: pieces) := by
  cases pieces with
  | nil => rw [List.intercalate_singleton]
  | cons y pieces =>
    rw [List.intercalate_cons_cons, List.append_assoc]
    exact List.prefix_append ..

lemma append_prefix_intercalate (sep x : List α) (h : pieces ≠ []) :
    x ++ sep <+: sep.intercalate (x :: pieces) := by
  rw [List.intercalate_cons_of_ne_nil h]
  exact List.prefix_append ..

lemma append_suffix_intercalate (sep x : List α) (h : pieces ≠ []) :
    sep ++ x <:+ sep.intercalate (pieces ++ [x]) := by
  induction pieces with
  | nil => exact absurd rfl h
  | cons y pieces ih =>
    rw [List.cons_append, List.intercalate_cons_of_ne_nil (by simp)]
    cases pieces with
    | nil => exact ⟨y, by rw [List.nil_append, List.intercalate_singleton, List.append_assoc]⟩
    | cons z pieces =>
      exact (ih (by simp)).trans (List.suffix_append ..)

lemma suffix_intercalate (sep x : List α) (pieces : List (List α)) :
    x <:+ sep.intercalate (pieces ++ [x]) := by
  by_cases h : pieces = []
  · rw [h, List.nil_append, List.intercalate_singleton]
  · exact (List.suffix_append sep x).trans (append_suffix_intercalate sep x h)

lemma subset_intercalate (hx : x ∈ pieces) : x ⊆ sep.intercalate pieces := by
  obtain ⟨before, after, rfl⟩ := List.append_of_mem hx
  induction before with
  | nil => exact (prefix_intercalate sep x after).subset
  | cons y before ih =>
    rw [List.cons_append, List.intercalate_cons_of_ne_nil (by simp)]
    exact fun a ha => List.mem_append_right _ (ih (by simp) ha)

lemma mem_of_mem_intercalate {a : α} (ha : a ∈ sep.intercalate pieces) :
    a ∈ sep ∨ ∃ x ∈ pieces, a ∈ x := by
  induction pieces with
  | nil => cases ha
  | cons y pieces ih =>
    by_cases hne : pieces = []
    · subst hne
      rw [List.intercalate_singleton] at ha
      exact .inr ⟨y, List.mem_cons_self, ha⟩
    · rw [List.intercalate_cons_of_ne_nil hne, List.mem_append, List.mem_append] at ha
      rcases ha with (hy | hsep) | hrest
      · exact .inr ⟨y, List.mem_cons_self, hy⟩
      · exact .inl hsep
      · exact (ih hrest).imp id fun ⟨x, hx, hax⟩ => ⟨x, List.mem_cons_of_mem y hx, hax⟩

/-- A prefix of a concatenation that does not end in the first part. -/
lemma exists_of_prefix_append (h : sep <+: s ++ t) (hs : ¬ sep <+: s) :
    ∃ x, x ≠ [] ∧ sep = s ++ x ∧ x <+: t := by
  obtain ⟨x, rfl⟩ := (List.prefix_or_prefix_of_prefix h (List.prefix_append s t)).resolve_left hs
  refine ⟨x, ?_, rfl, (List.prefix_append_right_inj s).mp h⟩
  rintro rfl
  exact hs (by rw [List.append_nil])

/-! ### Cutting -/

/-- The pieces between the occurrences of a separator, found one after the other from the left.
The next `skip` elements belong to the occurrence just found, `piece` is the piece so far, reversed. -/
def cutFrom [DecidableEq α] (sep : List α) : List α → ℕ → List α → List (List α)
  | [], _, piece => [piece.reverse]
  | _ :: s, skip + 1, piece => cutFrom sep s skip piece
  | a :: s, 0, piece =>
    if sep <+: a :: s then piece.reverse :: cutFrom sep s (sep.length - 1) []
    else cutFrom sep s 0 (a :: piece)

def cut [DecidableEq α] (sep s : List α) : List (List α) := cutFrom sep s 0 []

lemma cutFrom_skip [DecidableEq α] (sep x s : List α) :
    cutFrom sep (x ++ s) x.length [] = cutFrom sep s 0 [] := by
  induction x with
  | nil => rfl
  | cons a x ih => rw [List.cons_append, List.length_cons, cutFrom, ih]

/-- A piece, and after it the first separator of the text. -/
structure First (sep s x t : List α) : Prop where
  eq : s = x ++ sep ++ t
  before : ¬ sep <:+: x ++ sep.dropLast

/-- A piece is determined by the text. -/
lemma First.unique (h : First sep s x t) (h' : First sep s x' t') : x = x' ∧ t = t' := by
  have hle : ∀ {x x' t t' : List α}, First sep s x t → First sep s x' t' → x'.length ≤ x.length := by
    intro x x' t t' h h'
    by_contra hlt
    refine h'.before ⟨x, ?_⟩
    have hshort : (x ++ sep).length ≤ (x' ++ sep.dropLast).length := by
      simp only [List.length_append, List.length_dropLast]
      omega
    have hfirst : x ++ sep <+: s := ⟨t, h.eq.symm⟩
    have hsecond : x' ++ sep.dropLast <+: s := by
      rw [h'.eq, List.append_assoc]
      refine (List.prefix_append_right_inj x').mpr ?_
      exact (List.dropLast_prefix sep).trans (List.prefix_append sep t')
    obtain ⟨rest, hrest⟩ := List.prefix_of_prefix_length_le hfirst hsecond hshort
    exact ⟨rest, hrest⟩
  have hlen : x.length = x'.length := le_antisymm (hle h' h) (hle h h')
  have heq : x ++ (sep ++ t) = x' ++ (sep ++ t') := by
    rw [← List.append_assoc, ← List.append_assoc, ← h.eq, ← h'.eq]
  obtain ⟨rfl, hrest⟩ := List.append_inj heq hlen
  exact ⟨rfl, List.append_cancel_left hrest⟩

variable [DecidableEq α]

/-- One step of the cutting. -/
lemma cutFrom_cases (hsep : sep ≠ []) (s piece : List α) :
    (¬ sep <:+: s ∧ cutFrom sep s 0 piece = [piece.reverse ++ s]) ∨
      ∃ x t, First sep s x t ∧ cutFrom sep s 0 piece = (piece.reverse ++ x) :: cut sep t := by
  induction s generalizing piece with
  | nil => exact .inl ⟨by simpa using hsep, by rw [cutFrom, List.append_nil]⟩
  | cons a s ih =>
    have hlast : ¬ sep <:+: sep.dropLast := by
      intro h
      have hlen := h.length_le
      have hpos : 0 < sep.length := List.length_pos_iff.mpr hsep
      rw [List.length_dropLast] at hlen
      omega
    by_cases hbegins : sep <+: a :: s
    · right
      obtain ⟨t, ht⟩ := hbegins
      refine ⟨[], t, ⟨ht.symm, hlast⟩, ?_⟩
      obtain ⟨b, sep, rfl⟩ := List.exists_cons_of_ne_nil hsep
      obtain ⟨rfl, hs⟩ := List.cons.inj ht
      obtain rfl : sep ++ t = s := hs
      rw [cutFrom, if_pos ⟨t, rfl⟩, List.append_nil, List.length_cons, Nat.add_sub_cancel, cutFrom_skip]
      rfl
    · rcases ih (a :: piece) with ⟨hnot, hcut⟩ | ⟨x, t, hfirst, hcut⟩
      · left
        refine ⟨?_, ?_⟩
        · rw [List.infix_cons_iff]
          exact not_or.mpr ⟨hbegins, hnot⟩
        · rw [cutFrom, if_neg hbegins, hcut, List.reverse_cons, List.append_assoc, List.singleton_append]
      · right
        refine ⟨a :: x, t, ⟨?_, ?_⟩, ?_⟩
        · rw [hfirst.eq]
          rfl
        · rw [List.cons_append, List.infix_cons_iff]
          refine not_or.mpr ⟨fun h => hbegins (h.trans ?_), hfirst.before⟩
          rw [hfirst.eq, List.append_assoc]
          refine (List.prefix_cons_inj a).mpr ((List.prefix_append_right_inj x).mpr ?_)
          exact (List.dropLast_prefix sep).trans (List.prefix_append sep t)
        · rw [cutFrom, if_neg hbegins, hcut, List.reverse_cons, List.append_assoc, List.singleton_append]

lemma cut_cases (hsep : sep ≠ []) (s : List α) :
    (¬ sep <:+: s ∧ cut sep s = [s]) ∨ ∃ x t, First sep s x t ∧ cut sep s = x :: cut sep t :=
  cutFrom_cases hsep s []

lemma cut_ne_nil (hsep : sep ≠ []) (s : List α) : cut sep s ≠ [] := by
  rcases cut_cases hsep s with ⟨-, h⟩ | ⟨x, t, -, h⟩ <;> simp [h]

/-- The pieces, joined, are the text. -/
lemma intercalate_cut (hsep : sep ≠ []) (s : List α) : sep.intercalate (cut sep s) = s := by
  induction hn : s.length using Nat.strong_induction_on generalizing s with
  | _ n ih =>
    rcases cut_cases hsep s with ⟨-, h⟩ | ⟨x, t, hfirst, h⟩
    · rw [h, List.intercalate_singleton]
    · have hlt : t.length < n := by
        have hpos : 0 < sep.length := List.length_pos_iff.mpr hsep
        have hlen := congrArg List.length hfirst.eq
        simp only [List.length_append] at hlen
        omega
      rw [h, List.intercalate_cons_of_ne_nil (cut_ne_nil hsep t), ih _ hlt t rfl]
      exact hfirst.eq.symm

/-- **Cutting is the inverse of joining** for these pieces, and for no others. -/
theorem cut_intercalate_iff (hsep : sep ≠ []) :
    cut sep (sep.intercalate pieces) = pieces ↔ Apart sep pieces := by
  induction pieces with
  | nil => exact iff_of_false (cut_ne_nil hsep _) id
  | cons x pieces ih =>
    cases pieces with
    | nil =>
      rw [List.intercalate_singleton]
      rcases cut_cases hsep x with ⟨hnot, h⟩ | ⟨y, t, hfirst, h⟩
      · exact iff_of_true h hnot
      · refine iff_of_false (fun heq => ?_) fun hnot => hnot ⟨y, t, hfirst.eq.symm⟩
        rw [h] at heq
        exact cut_ne_nil hsep t (List.cons.inj heq).2
    | cons y pieces =>
      have htext : sep.intercalate (x :: y :: pieces) = x ++ sep ++ sep.intercalate (y :: pieces) := by
        rw [List.intercalate_cons_cons]
      rcases cut_cases hsep (sep.intercalate (x :: y :: pieces)) with ⟨hnot, h⟩ | ⟨x', t, hfirst, h⟩
      · exact absurd ⟨x, _, htext.symm⟩ hnot
      · rw [h]
        constructor
        · intro heq
          obtain ⟨rfl, hrest⟩ := List.cons.inj heq
          have ht : t = sep.intercalate (y :: pieces) := by
            have hsame := hfirst.eq.symm.trans htext
            exact List.append_cancel_left hsame
          exact ⟨hfirst.before, ih.mp (ht ▸ hrest)⟩
        · rintro ⟨hbefore, hpieces⟩
          obtain ⟨rfl, rfl⟩ := hfirst.unique ⟨htext, hbefore⟩
          rw [ih.mpr hpieces]

/-- What a text is cut into is apart. -/
lemma apart_cut (hsep : sep ≠ []) (s : List α) : Apart sep (cut sep s) := by
  rw [← cut_intercalate_iff hsep, intercalate_cut hsep]

lemma cut_subset (hsep : sep ≠ []) (hx : x ∈ cut sep s) : x ⊆ s := by
  have hsubset : x ⊆ sep.intercalate (cut sep s) := subset_intercalate hx
  rwa [intercalate_cut hsep] at hsubset

/-- A text that begins with a separator has an empty piece before it. -/
lemma cut_append (hsep : sep ≠ []) (s : List α) : cut sep (sep ++ s) = [] :: cut sep s := by
  obtain ⟨a, sep, rfl⟩ := List.exists_cons_of_ne_nil hsep
  have hprefix : a :: sep <+: a :: (sep ++ s) := List.prefix_append (a :: sep) s
  rw [cut, List.cons_append, cutFrom, if_pos hprefix, List.length_cons, Nat.add_sub_cancel,
    cutFrom_skip]
  rfl

/-- A text is one piece if no separator is in it. -/
lemma length_cut_eq_one_iff (hsep : sep ≠ []) (s : List α) :
    (cut sep s).length = 1 ↔ ¬ sep <:+: s := by
  rcases cut_cases hsep s with ⟨hnot, h⟩ | ⟨x, t, hfirst, h⟩
  · exact iff_of_true (by rw [h, List.length_singleton]) hnot
  · refine iff_of_false (fun hone => ?_) fun hnot => hnot ⟨x, t, hfirst.eq.symm⟩
    rw [h, List.length_cons, Nat.add_eq_right] at hone
    exact cut_ne_nil hsep t (List.length_eq_zero_iff.mp hone)

/-- Lines of cells. -/
theorem cut_cut_iff {inner : List α} {rows : List (List (List α))} (hsep : sep ≠ []) (hinner : inner ≠ []) :
    (cut sep (sep.intercalate (rows.map inner.intercalate))).map (cut inner) = rows ↔
      Apart sep (rows.map inner.intercalate) ∧ ∀ row ∈ rows, Apart inner row := by
  have hself : ∀ {l : List (List (List α))} {f}, l.map f = l ↔ ∀ row ∈ l, f row = row := by
    intro l f
    conv_lhs => rhs; rw [← List.map_id l]
    exact List.map_inj_left
  have hjoin : inner.intercalate ∘ cut inner = id := funext (intercalate_cut hinner)
  constructor
  · intro h
    have hlines := congrArg (List.map inner.intercalate) h
    rw [List.map_map, hjoin, List.map_id] at hlines
    refine ⟨(cut_intercalate_iff hsep).mp hlines, fun row hrow => ?_⟩
    rw [hlines, List.map_map] at h
    exact (cut_intercalate_iff hinner).mp (hself.mp h row hrow)
  · rintro ⟨hlines, hrows⟩
    rw [(cut_intercalate_iff hsep).mpr hlines, List.map_map]
    exact hself.mpr fun row hrow => (cut_intercalate_iff hinner).mpr (hrows row hrow)

/-! ### The first piece -/

variable {pat text u v piece before : List α} {a b : α}

/-- The first piece begins with the piece so far. -/
lemma cutFrom_eq_cons (pat text piece : List α) :
    ∃ w pieces, cutFrom pat text 0 piece = (piece.reverse ++ w) :: pieces := by
  induction text generalizing piece with
  | nil => exact ⟨[], [], by rw [cutFrom, List.append_nil]⟩
  | cons c text ih =>
    rw [cutFrom]
    by_cases hat : pat <+: c :: text
    · exact ⟨[], _, by rw [if_pos hat, List.append_nil]⟩
    · obtain ⟨w, pieces, h⟩ := ih (c :: piece)
      refine ⟨c :: w, pieces, ?_⟩
      rw [if_neg hat, h, List.reverse_cons, List.append_assoc, List.singleton_append]

/-- What stands before the first occurrence is the first piece. -/
lemma cutFrom_before (ha : a ∉ pat) (hbefore : ¬ a :: pat <:+: before) (text piece : List α) :
    cutFrom (a :: pat) (before ++ (a :: pat ++ text)) 0 piece =
      (piece.reverse ++ before) :: cutFrom (a :: pat) text 0 [] := by
  induction before generalizing piece with
  | nil =>
    have hat : a :: pat <+: a :: (pat ++ text) := List.prefix_append (a :: pat) text
    rw [List.nil_append, List.cons_append, cutFrom, if_pos hat, List.append_nil, List.length_cons,
      Nat.add_sub_cancel, cutFrom_skip]
  | cons c before ih =>
    have hat : ¬ a :: pat <+: c :: (before ++ (a :: pat ++ text)) := by
      intro h
      obtain ⟨x, hx, hpat, hprefix⟩ :=
        exists_of_prefix_append (s := c :: before) h fun hin => hbefore hin.isInfix
      -- another occurrence would begin inside of the first one
      obtain ⟨d, x, rfl⟩ := List.exists_cons_of_ne_nil hx
      obtain rfl : d = a := (List.cons_prefix_cons.mp hprefix).1
      refine ha ?_
      rw [List.cons_append] at hpat
      rw [(List.cons.inj hpat).2]
      exact List.mem_append_right _ List.mem_cons_self
    have hrest : ¬ a :: pat <:+: before := fun hin => hbefore (hin.trans (List.suffix_cons c before).isInfix)
    rw [List.cons_append, cutFrom, if_neg hat, ih hrest (c :: piece), List.reverse_cons,
      List.append_assoc, List.singleton_append]

/-- Up to a separator that the pattern does not contain, the first piece is the text. -/
lemma cutFrom_until (ha : a ∈ pat) (hu : a ∉ u) (hb : b ∉ pat) (hv : v = [] ∨ v.head? = some b)
    (piece : List α) :
    ∃ w pieces, cutFrom pat (u ++ v) 0 piece = (piece.reverse ++ u ++ w) :: pieces ∧
      (w = [] ∨ w.head? = some b) := by
  -- the separator stands outside of every occurrence
  have hout : ∀ x, x ≠ [] → x <+: v → b ∈ x := by
    intro x hx hprefix
    obtain ⟨d, x, rfl⟩ := List.exists_cons_of_ne_nil hx
    obtain ⟨t, rfl⟩ := hprefix
    obtain hnil | hhead := hv
    · cases hnil
    · rw [← Option.some.inj hhead]
      exact List.mem_cons_self
  induction u generalizing piece with
  | nil =>
    cases v with
    | nil => exact ⟨[], [], by rw [List.append_nil, cutFrom, List.append_nil, List.append_nil], .inl rfl⟩
    | cons c v =>
      have hat : ¬ pat <+: c :: v := fun h => hb (hout pat (List.ne_nil_of_mem ha) h)
      obtain ⟨w, pieces, h⟩ := cutFrom_eq_cons pat v (c :: piece)
      refine ⟨c :: w, pieces, ?_, .inr (hv.resolve_left (List.cons_ne_nil c v))⟩
      rw [List.nil_append, cutFrom, if_neg hat, h, List.reverse_cons, List.append_assoc,
        List.singleton_append, List.append_nil]
  | cons c u ih =>
    rw [List.mem_cons, not_or] at hu
    have hat : ¬ pat <+: c :: (u ++ v) := by
      intro h
      have hnot : ¬ pat <+: c :: u := fun hin =>
        (List.mem_cons.mp (hin.subset ha)).elim hu.1 hu.2
      obtain ⟨x, hx, hpat, hprefix⟩ := exists_of_prefix_append (s := c :: u) h hnot
      rw [hpat] at hb
      exact hb (List.mem_append_right _ (hout x hx hprefix))
    obtain ⟨w, pieces, h, hw⟩ := ih hu.2 (c :: piece)
    refine ⟨w, pieces, ?_, hw⟩
    rw [List.cons_append, cutFrom, if_neg hat, h, List.reverse_cons, List.append_assoc piece.reverse,
      List.singleton_append]

end KaitoAutoIndexer.Lib.Separated
