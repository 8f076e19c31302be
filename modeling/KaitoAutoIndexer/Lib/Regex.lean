import Mathlib.Computability.Language

/-!
Regular expressions with anchors, and the search for a match anywhere in a text. What an anchor
matches depends on whether something stands before or after the match; an expression without
anchors denotes a language.
-/

namespace KaitoAutoIndexer.Lib

inductive Regex (α : Type)
  | char (p : α → Bool)
  | eps
  /-- The anchor `^`. -/
  | first
  /-- The anchor `$`. -/
  | last
  | seq (r q : Regex α)
  | alt (r q : Regex α)
  | star (r : Regex α)

namespace Regex

variable {α : Type}

/-- The expression matches `m`; `b` and `e` tell that nothing stands before it, and after it. -/
inductive Matches : Regex α → Bool → List α → Bool → Prop
  | char {p : α → Bool} {a : α} {b e : Bool} (h : p a = true) : Matches (.char p) b [a] e
  | eps {b e : Bool} : Matches .eps b [] e
  | first {e : Bool} : Matches .first true [] e
  | last {b : Bool} : Matches .last b [] true
  | seq {r q : Regex α} {b e : Bool} {m n : List α} (hr : Matches r b m (n.isEmpty && e))
      (hq : Matches q (b && m.isEmpty) n e) : Matches (.seq r q) b (m ++ n) e
  | left {r q : Regex α} {b e : Bool} {m : List α} (h : Matches r b m e) : Matches (.alt r q) b m e
  | right {r q : Regex α} {b e : Bool} {m : List α} (h : Matches q b m e) : Matches (.alt r q) b m e
  | none {r : Regex α} {b e : Bool} : Matches (.star r) b [] e
  | more {r : Regex α} {b e : Bool} {m n : List α} (hr : Matches r b m (n.isEmpty && e))
      (hs : Matches (.star r) (b && m.isEmpty) n e) : Matches (.star r) b (m ++ n) e

/-- There is a match somewhere in the text. -/
def Search (r : Regex α) (s : List α) : Prop :=
  ∃ l m t, s = l ++ m ++ t ∧ Matches r l.isEmpty m t.isEmpty

/-! ### Other operators -/

def lit [DecidableEq α] : List α → Regex α
  | [] => .eps
  | a :: w => .seq (.char (decide <| a = ·)) (lit w)

def plus (r : Regex α) : Regex α := .seq r (.star r)

def opt (r : Regex α) : Regex α := .alt r .eps

def pow (r : Regex α) : ℕ → Regex α
  | 0 => .eps
  | n + 1 => .seq r (pow r n)

/-- Between `n` and `n + k` times. -/
def times (r : Regex α) (n k : ℕ) : Regex α := .seq (pow r n) (pow (opt r) k)

/-- One after the other. -/
def seqs : List (Regex α) → Regex α
  | [] => .eps
  | r :: rs => .seq r (seqs rs)

/-- One of the expressions. -/
def oneOf (r : Regex α) : List (Regex α) → Regex α
  | [] => r
  | q :: rs => .alt r (oneOf q rs)

/-- The expression between both anchors. -/
def whole (r : Regex α) : Regex α := .seq .first (.seq r .last)

/-! ### The matcher -/

/-- What a repetition of `f` may leave, `n` times at most; each time something is matched. -/
def starEnds (f : Bool → List α → List (List α)) : ℕ → Bool → List α → List (List α)
  | 0, _, s => [s]
  | n + 1, b, s =>
    s :: ((f b s).filter (·.length < s.length)).flatMap (starEnds f n false)

/-- What the matches at the start of a text leave of it. -/
def ends : Regex α → Bool → List α → List (List α)
  | .char _, _, [] => []
  | .char p, _, a :: s => if p a then [s] else []
  | .eps, _, s => [s]
  | .first, b, s => if b then [s] else []
  | .last, _, s => if s.isEmpty then [s] else []
  | .seq r q, b, s => (r.ends b s).flatMap fun t => q.ends (b && t.length == s.length) t
  | .alt r q, b, s => r.ends b s ++ q.ends b s
  | .star r, b, s => starEnds r.ends s.length b s

/-- Whether there is a match somewhere in the text. -/
def test (r : Regex α) (s : List α) : Bool :=
  s.tails.any fun t => !(r.ends (t.length == s.length) t).isEmpty

/-! ### The matcher finds the matches -/

variable {r q : Regex α} {b e : Bool} {m s t : List α}

private lemma isEmpty_append (m t : List α) : (m ++ t).isEmpty = (m.isEmpty && t.isEmpty) := by
  cases m <;> rfl

lemma matches_char {p : α → Bool} : Matches (.char p) b m e ↔ ∃ a, p a = true ∧ m = [a] := by
  constructor
  · rintro ⟨h⟩
    exact ⟨_, h, rfl⟩
  · rintro ⟨a, h, rfl⟩
    exact .char h

lemma matches_eps : Matches (.eps : Regex α) b m e ↔ m = [] := by
  constructor
  · rintro ⟨⟩
    rfl
  · rintro rfl
    exact .eps

lemma matches_first : Matches (.first : Regex α) b m e ↔ m = [] ∧ b = true := by
  constructor
  · rintro ⟨⟩
    exact ⟨rfl, rfl⟩
  · rintro ⟨rfl, rfl⟩
    exact .first

lemma matches_last : Matches (.last : Regex α) b m e ↔ m = [] ∧ e = true := by
  constructor
  · rintro ⟨⟩
    exact ⟨rfl, rfl⟩
  · rintro ⟨rfl, rfl⟩
    exact .last

lemma matches_seq : Matches (.seq r q) b m e ↔ ∃ m₁ m₂, m = m₁ ++ m₂ ∧
    Matches r b m₁ (m₂.isEmpty && e) ∧ Matches q (b && m₁.isEmpty) m₂ e := by
  constructor
  · rintro ⟨⟩
    exact ⟨_, _, rfl, by assumption, by assumption⟩
  · rintro ⟨m₁, m₂, rfl, hr, hq⟩
    exact .seq hr hq

lemma matches_alt : Matches (.alt r q) b m e ↔ Matches r b m e ∨ Matches q b m e := by
  constructor
  · rintro ⟨⟩
    · exact .inl (by assumption)
    · exact .inr (by assumption)
  · rintro (h | h)
    · exact .left h
    · exact .right h

/-- A repetition that matches something begins with a match that is not empty. -/
lemma matches_star_cases (h : Matches (.star r) b m e) : m = [] ∨ ∃ m₁ m₂, m₁ ≠ [] ∧
    m = m₁ ++ m₂ ∧ Matches r b m₁ (m₂.isEmpty && e) ∧ Matches (.star r) false m₂ e := by
  generalize hstar : Regex.star r = q at h
  induction h with
  | none => exact .inl rfl
  | @more r' b e m n hr hs _ ih =>
    cases hstar
    by_cases hm : m = []
    · subst hm
      simpa using ih rfl
    · have hempty : m.isEmpty = false := List.isEmpty_eq_false_iff.mpr hm
      rw [hempty, Bool.and_false] at hs
      exact .inr ⟨m, n, hm, rfl, hr, hs⟩
  | _ => cases hstar

lemma mem_starEnds {f : Bool → List α → List (List α)}
    (hf : ∀ b s t, t ∈ f b s ↔ ∃ m, s = m ++ t ∧ Matches r b m t.isEmpty) {n : ℕ}
    (hn : s.length ≤ n) :
    t ∈ starEnds f n b s ↔ ∃ m, s = m ++ t ∧ Matches (.star r) b m t.isEmpty := by
  induction n generalizing b s with
  | zero =>
    obtain rfl : s = [] := List.eq_nil_of_length_eq_zero (by omega)
    simp only [starEnds, List.mem_singleton]
    constructor
    · rintro rfl
      exact ⟨[], rfl, .none⟩
    · rintro ⟨m, hm, -⟩
      exact (List.append_eq_nil_iff.mp hm.symm).2
  | succ n ih =>
    simp only [starEnds, List.mem_cons, List.mem_flatMap, List.mem_filter, decide_eq_true_eq]
    constructor
    · rintro (rfl | ⟨u, ⟨hu, hlt⟩, ht⟩)
      · exact ⟨[], rfl, .none⟩
      · obtain ⟨m₁, rfl, hr⟩ := (hf _ _ _).mp hu
        obtain ⟨m₂, rfl, hs⟩ := (ih (by omega)).mp ht
        refine ⟨m₁ ++ m₂, by rw [List.append_assoc], .more ?_ ?_⟩
        · rwa [isEmpty_append] at hr
        · have hne : m₁.isEmpty = false := by
            rw [List.isEmpty_eq_false_iff]
            rintro rfl
            simp at hlt
          rwa [hne, Bool.and_false]
    · rintro ⟨m, rfl, h⟩
      rcases matches_star_cases h with rfl | ⟨m₁, m₂, hne, rfl, hr, hs⟩
      · exact .inl rfl
      · have hpos : 0 < m₁.length := List.length_pos_iff.mpr hne
        refine .inr ⟨m₂ ++ t, ⟨(hf _ _ _).mpr ⟨m₁, by rw [List.append_assoc], ?_⟩, ?_⟩, ?_⟩
        · rwa [isEmpty_append]
        · simp only [List.length_append]
          omega
        · refine (ih ?_).mpr ⟨m₂, rfl, hs⟩
          simp only [List.length_append] at hn ⊢
          omega

private lemma and_length_eq (b : Bool) (m t : List α) :
    (b && t.length == (m ++ t).length) = (b && m.isEmpty) := by
  cases m with
  | nil => simp
  | cons a m =>
    have hne : (t.length == (a :: m ++ t).length) = false := by
      rw [beq_eq_false_iff_ne]
      simp only [List.cons_append, List.length_cons, List.length_append]
      omega
    rw [hne]
    rfl

/-- The matcher leaves what the matches leave. -/
theorem mem_ends : t ∈ r.ends b s ↔ ∃ m, s = m ++ t ∧ Matches r b m t.isEmpty := by
  induction r generalizing b s t with
  | char p =>
    simp only [matches_char]
    cases s with
    | nil => simp [ends]
    | cons a s =>
      simp only [ends]
      constructor
      · intro h
        split at h
        · rename_i ha
          obtain rfl := List.mem_singleton.mp h
          exact ⟨[a], rfl, a, ha, rfl⟩
        · cases h
      · rintro ⟨m, hm, a', ha, rfl⟩
        obtain ⟨rfl, rfl⟩ := List.cons.inj hm
        rw [if_pos ha]
        exact List.mem_singleton_self _
  | eps => simp [ends, matches_eps, eq_comm]
  | first =>
    cases b <;> simp [ends, matches_first, eq_comm]
  | last =>
    simp only [ends, matches_last]
    constructor
    · intro h
      split at h
      · rename_i hs
        obtain rfl := List.mem_singleton.mp h
        exact ⟨[], rfl, rfl, hs⟩
      · cases h
    · rintro ⟨m, rfl, rfl, ht⟩
      rw [List.nil_append, if_pos ht]
      exact List.mem_singleton_self _
  | seq r q ihr ihq =>
    simp only [ends, List.mem_flatMap, matches_seq, ihr, ihq]
    constructor
    · rintro ⟨u, ⟨m₁, rfl, hr⟩, m₂, rfl, hq⟩
      rw [and_length_eq] at hq
      rw [isEmpty_append] at hr
      exact ⟨m₁ ++ m₂, by rw [List.append_assoc], m₁, m₂, rfl, hr, hq⟩
    · rintro ⟨m, rfl, m₁, m₂, rfl, hr, hq⟩
      refine ⟨m₂ ++ t, ⟨m₁, by rw [List.append_assoc], ?_⟩, m₂, rfl, ?_⟩
      · rwa [isEmpty_append]
      · rwa [List.append_assoc, and_length_eq]
  | alt r q ihr ihq =>
    simp only [ends, List.mem_append, matches_alt, ihr, ihq]
    constructor
    · rintro (⟨m, rfl, h⟩ | ⟨m, rfl, h⟩)
      · exact ⟨m, rfl, .inl h⟩
      · exact ⟨m, rfl, .inr h⟩
    · rintro ⟨m, rfl, h | h⟩
      · exact .inl ⟨m, rfl, h⟩
      · exact .inr ⟨m, rfl, h⟩
  | star r ih => exact mem_starEnds (fun _ _ _ => ih) le_rfl

theorem test_eq_true : r.test s = true ↔ Search r s := by
  simp only [test, List.any_eq_true, List.mem_tails, Bool.not_eq_true', List.isEmpty_eq_false_iff_exists_mem]
  constructor
  · rintro ⟨_, ⟨l, rfl⟩, t, ht⟩
    obtain ⟨m, rfl, h⟩ := mem_ends.mp ht
    rw [← Bool.true_and (_ == _), and_length_eq, Bool.true_and] at h
    exact ⟨l, m, t, (List.append_assoc ..).symm, h⟩
  · rintro ⟨l, m, t, rfl, h⟩
    refine ⟨m ++ t, ⟨l, (List.append_assoc ..).symm⟩, t, mem_ends.mpr ⟨m, rfl, ?_⟩⟩
    rwa [List.append_assoc, ← Bool.true_and (_ == _), and_length_eq, Bool.true_and]

instance : Decidable (Search r s) := decidable_of_iff _ test_eq_true

/-! ### Languages -/

/-- Wherever it stands, the expression matches the words of a language. -/
def Denotes (r : Regex α) (L : Language α) : Prop := ∀ b m e, Matches r b m e ↔ m ∈ L

variable {L M : Language α}

/-- The words of one letter that passes a test. -/
def letter (p : α → Bool) : Language α := {m | ∃ a, p a = true ∧ m = [a]}

lemma Denotes.char (p : α → Bool) : Denotes (.char p) (letter p) := fun _ _ _ => matches_char

lemma Denotes.eps : Denotes (.eps : Regex α) 1 := by
  intro b m e
  rw [matches_eps, Language.mem_one]

lemma Denotes.seq (hr : Denotes r L) (hq : Denotes q M) : Denotes (.seq r q) (L * M) := by
  intro b m e
  rw [matches_seq, Language.mem_mul]
  simp only [hr _ _ _, hq _ _ _]
  constructor
  · rintro ⟨m₁, m₂, rfl, h₁, h₂⟩
    exact ⟨m₁, h₁, m₂, h₂, rfl⟩
  · rintro ⟨m₁, h₁, m₂, h₂, rfl⟩
    exact ⟨m₁, m₂, rfl, h₁, h₂⟩

lemma Denotes.alt (hr : Denotes r L) (hq : Denotes q M) : Denotes (.alt r q) (L + M) := by
  intro b m e
  rw [matches_alt, Language.mem_add, hr, hq]

open Computability in
lemma Denotes.star (hr : Denotes r L) : Denotes (.star r) L∗ := by
  intro b m e
  rw [Language.mem_kstar]
  constructor
  · intro h
    generalize hstar : Regex.star r = q at h
    induction h with
    | none => exact ⟨[], rfl, List.forall_mem_nil _⟩
    | more hm _ _ ih =>
      cases hstar
      obtain ⟨ms, rfl, hms⟩ := ih rfl
      exact ⟨_ :: ms, rfl, List.forall_mem_cons.mpr ⟨(hr _ _ _).mp hm, hms⟩⟩
    | _ => cases hstar
  · rintro ⟨ms, rfl, hms⟩
    induction ms generalizing b with
    | nil => exact .none
    | cons m ms ih =>
      rw [List.forall_mem_cons] at hms
      exact .more ((hr _ _ _).mpr hms.1) (ih _ hms.2)

lemma Denotes.lit [DecidableEq α] (w : List α) : Denotes (.lit w) {w} := by
  induction w with
  | nil => exact .eps
  | cons a w ih =>
    intro b m e
    rw [Regex.lit, (Denotes.seq (.char _) ih) b m e, Language.mem_mul]
    constructor
    · rintro ⟨_, ⟨a', ha, rfl⟩, _, rfl, rfl⟩
      rw [of_decide_eq_true ha]
      rfl
    · intro hm
      obtain rfl : m = a :: w := hm
      exact ⟨[a], ⟨a, decide_eq_true rfl, rfl⟩, w, rfl, rfl⟩

open Computability in
lemma Denotes.plus (hr : Denotes r L) : Denotes (.plus r) (L * L∗) := hr.seq hr.star

lemma Denotes.opt (hr : Denotes r L) : Denotes (.opt r) (L + 1) := hr.alt .eps

lemma Denotes.pow (hr : Denotes r L) (n : ℕ) : Denotes (.pow r n) (L ^ n) := by
  induction n with
  | zero => exact .eps
  | succ n ih =>
    rw [pow_succ']
    exact hr.seq ih

lemma Denotes.times (hr : Denotes r L) (n k : ℕ) : Denotes (.times r n k) (L ^ n * (L + 1) ^ k) :=
  (hr.pow n).seq (hr.opt.pow k)

/-- A repetition in pieces, one at least. -/
lemma Denotes.plus_iff (hr : Denotes r L) : Matches (.plus r) b m e ↔
    ∃ ms : List (List α), ms ≠ [] ∧ (∀ x ∈ ms, x ∈ L) ∧ m = ms.flatten := by
  rw [hr.plus, Language.mem_mul]
  constructor
  · rintro ⟨x, hx, _, ⟨ms, rfl, hms⟩, rfl⟩
    exact ⟨x :: ms, List.cons_ne_nil _ _, List.forall_mem_cons.mpr ⟨hx, hms⟩, rfl⟩
  · rintro ⟨ms, hne, hms, rfl⟩
    cases ms with
    | nil => exact absurd rfl hne
    | cons x ms =>
      rw [List.forall_mem_cons] at hms
      exact ⟨x, hms.1, ms.flatten, ⟨ms, rfl, hms.2⟩, rfl⟩

lemma matches_star_char {p : α → Bool} : Matches (.star (.char p)) b m e ↔ ∀ a ∈ m, p a = true := by
  rw [(Denotes.char p).star b m e, Language.mem_kstar]
  constructor
  · rintro ⟨ms, rfl, hms⟩ a ha
    obtain ⟨x, hx, ha⟩ := List.mem_flatten.mp ha
    obtain ⟨a', hp, rfl⟩ := hms x hx
    rwa [List.mem_singleton.mp ha]
  · intro hp
    refine ⟨m.map fun a => [a], ?_, ?_⟩
    · rw [← List.flatMap_def, List.flatMap_singleton']
    · intro x hx
      obtain ⟨a, ha, rfl⟩ := List.mem_map.mp hx
      exact ⟨a, hp a ha, rfl⟩

lemma matches_plus_char {p : α → Bool} : Matches (.plus (.char p)) b m e ↔ m ≠ [] ∧ ∀ a ∈ m, p a = true := by
  simp only [plus, matches_seq, matches_char, matches_star_char]
  constructor
  · rintro ⟨_, n, rfl, ⟨a, ha, rfl⟩, hn⟩
    exact ⟨List.cons_ne_nil _ _, List.forall_mem_cons.mpr ⟨ha, hn⟩⟩
  · rintro ⟨hne, hp⟩
    cases m with
    | nil => exact absurd rfl hne
    | cons a n =>
      rw [List.forall_mem_cons] at hp
      exact ⟨[a], n, rfl, ⟨a, hp.1, rfl⟩, hp.2⟩

lemma mem_opt_pow {k : ℕ} : m ∈ (L + 1) ^ k ↔
    ∃ ms : List (List α), ms.length ≤ k ∧ (∀ x ∈ ms, x ∈ L) ∧ m = ms.flatten := by
  induction k generalizing m with
  | zero =>
    rw [pow_zero, Language.mem_one]
    constructor
    · rintro rfl
      exact ⟨[], le_rfl, List.forall_mem_nil _, rfl⟩
    · rintro ⟨ms, hlen, -, rfl⟩
      rw [List.eq_nil_of_length_eq_zero (Nat.le_zero.mp hlen)]
      rfl
  | succ k ih =>
    rw [pow_succ', Language.mem_mul]
    constructor
    · rintro ⟨x, hx, y, hy, rfl⟩
      obtain ⟨ms, hlen, hms, rfl⟩ := ih.mp hy
      rcases hx with hx | hx
      · exact ⟨x :: ms, by simpa using hlen, List.forall_mem_cons.mpr ⟨hx, hms⟩, rfl⟩
      · obtain rfl : x = [] := hx
        exact ⟨ms, by omega, hms, rfl⟩
    · rintro ⟨ms, hlen, hms, rfl⟩
      cases ms with
      | nil => exact ⟨[], .inr rfl, [], ih.mpr ⟨[], Nat.zero_le _, List.forall_mem_nil _, rfl⟩, rfl⟩
      | cons x ms =>
        rw [List.forall_mem_cons] at hms
        exact ⟨x, .inl hms.1, ms.flatten, ih.mpr ⟨ms, by simpa using hlen, hms.2, rfl⟩, rfl⟩

/-- Between `n` and `n + k` pieces. -/
lemma Denotes.times_iff (hr : Denotes r L) {n k : ℕ} : Matches (.times r n k) b m e ↔
    ∃ ms : List (List α), n ≤ ms.length ∧ ms.length ≤ n + k ∧ (∀ x ∈ ms, x ∈ L) ∧
      m = ms.flatten := by
  rw [hr.times, Language.mem_mul]
  constructor
  · rintro ⟨_, hx, _, hy, rfl⟩
    obtain ⟨ms, rfl, rfl, hms⟩ := Language.mem_pow.mp hx
    obtain ⟨ms', hlen, hms', rfl⟩ := mem_opt_pow.mp hy
    refine ⟨ms ++ ms', by simp, by simpa using hlen, ?_, by simp⟩
    exact List.forall_mem_append.mpr ⟨hms, hms'⟩
  · rintro ⟨ms, hn, hk, hms, rfl⟩
    refine ⟨(ms.take n).flatten, Language.mem_pow.mpr ⟨ms.take n, rfl, by simpa using hn, ?_⟩,
      (ms.drop n).flatten, mem_opt_pow.mpr ⟨ms.drop n, ?_, ?_, rfl⟩, ?_⟩
    · exact fun x hx => hms x (List.mem_of_mem_take hx)
    · rw [List.length_drop]
      omega
    · exact fun x hx => hms x (List.mem_of_mem_drop hx)
    · rw [← List.flatten_append, List.take_append_drop]

/-! ### Searching -/

lemma search_alt : Search (.alt r q) s ↔ Search r s ∨ Search q s := by
  simp only [Search, matches_alt]
  constructor
  · rintro ⟨l, m, t, hs, h | h⟩
    · exact .inl ⟨l, m, t, hs, h⟩
    · exact .inr ⟨l, m, t, hs, h⟩
  · rintro (⟨l, m, t, hs, h⟩ | ⟨l, m, t, hs, h⟩)
    · exact ⟨l, m, t, hs, .inl h⟩
    · exact ⟨l, m, t, hs, .inr h⟩

lemma Denotes.search (hr : Denotes r L) : Search r s ↔ ∃ m ∈ L, m <:+: s := by
  constructor
  · rintro ⟨l, m, t, rfl, h⟩
    exact ⟨m, (hr _ _ _).mp h, l, t, rfl⟩
  · rintro ⟨m, hm, l, t, rfl⟩
    exact ⟨l, m, t, rfl, (hr _ _ _).mpr hm⟩

lemma Denotes.search_first (hr : Denotes r L) : Search (.seq .first r) s ↔ ∃ m ∈ L, m <+: s := by
  simp only [Search, matches_seq, matches_first, hr _ _ _]
  constructor
  · rintro ⟨l, _, t, rfl, _, m, rfl, ⟨rfl, hl⟩, hm⟩
    obtain rfl := List.isEmpty_iff.mp hl
    exact ⟨m, hm, t, rfl⟩
  · rintro ⟨m, hm, t, rfl⟩
    exact ⟨[], m, t, rfl, [], m, rfl, ⟨rfl, rfl⟩, hm⟩

lemma Denotes.search_last (hr : Denotes r L) : Search (.seq r .last) s ↔ ∃ m ∈ L, m <:+ s := by
  simp only [Search, matches_seq, matches_last, hr _ _ _]
  constructor
  · rintro ⟨l, _, t, rfl, m, _, rfl, hm, rfl, ht⟩
    obtain rfl := List.isEmpty_iff.mp ht
    exact ⟨m, hm, l, by simp⟩
  · rintro ⟨m, hm, l, rfl⟩
    exact ⟨l, m, [], by simp, m, [], by simp, hm, rfl, rfl⟩

lemma search_whole : Search (.whole r) s ↔ Matches r true s true := by
  simp only [Search, whole, matches_seq, matches_first, matches_last]
  constructor
  · rintro ⟨l, _, t, rfl, _, _, rfl, ⟨rfl, hl⟩, m, _, rfl, hm, rfl, ht⟩
    obtain rfl := List.isEmpty_iff.mp hl
    obtain rfl := List.isEmpty_iff.mp ht
    simpa using hm
  · intro hs
    exact ⟨[], s, [], by simp, [], s, rfl, ⟨rfl, rfl⟩, s, [], by simp, by simpa using hs, rfl, rfl⟩

end Regex

end KaitoAutoIndexer.Lib
