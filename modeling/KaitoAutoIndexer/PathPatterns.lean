import KaitoAutoIndexer.Admission
import KaitoAutoIndexer.Text

/-!
The path patterns that the webhook takes. Each of its seven expressions says how a pattern may end
behind the names it begins with; some of the ends may stand behind any number of names, the others
behind one at most.
-/

namespace KaitoAutoIndexer.PathPatterns

open KaitoAutoIndexer.Lib KaitoAutoIndexer.Admission
open KaitoAutoIndexer.Lib.Regex (Matches Search Denotes)

/-! ### Segments -/

/-- A plain name. -/
def Name (s : List Char) : Prop := s ≠ [] ∧ ∀ c ∈ s, isPathChar c = true

def Ext (s : List Char) : Prop := s ≠ [] ∧ ∀ c ∈ s, c.isAlphanum = true

def star : List Char := ['*']

def starExt (e : List Char) : List Char := '*' :: '.' :: e

def globstar : List Char := ['*', '*']

/-- A wildcard in a directory: `*` or `*.ext`. -/
def Wild (w : List Char) : Prop := w = star ∨ ∃ e, Ext e ∧ w = starExt e

/-- What may follow `k` names. -/
inductive Ending : ℕ → List (List Char) → Prop
  | plain {k : ℕ} (hk : 1 ≤ k) : Ending k []
  | wild {k : ℕ} {w : List Char} (hk : k ≤ 1) (hw : Wild w) : Ending k [w]
  | globstar {k : ℕ} (hk : 1 ≤ k) : Ending k [globstar]
  | globstarExt {k : ℕ} {e : List Char} (he : Ext e) : Ending k [globstar, starExt e]
  | globstarNames {k : ℕ} {ms : List (List Char)} (hk : k ≤ 1) (hne : ms ≠ []) (hms : ∀ m ∈ ms, Name m) :
      Ending k (globstar :: ms)

/-- Names, and an ending that may follow that many. -/
inductive Pattern : List (List Char) → Prop
  | mk {ns tail : List (List Char)} (hns : ∀ n ∈ ns, Name n) (h : Ending ns.length tail) :
      Pattern (ns ++ tail)

/-- The segments in a row. -/
def slashed (gs : List (List Char)) : List Char := ['/'].intercalate gs

/-- More segments, each behind a slash. -/
def behind (gs : List (List Char)) : List Char := (gs.map ('/' :: ·)).flatten

variable {n e s : List Char} {gs ns ms tail : List (List Char)}

@[simp] lemma behind_nil : behind [] = [] := rfl

@[simp] lemma behind_cons (g : List Char) (gs : List (List Char)) :
    behind (g :: gs) = '/' :: (g ++ behind gs) := rfl

@[simp] lemma behind_append (gs hs : List (List Char)) : behind (gs ++ hs) = behind gs ++ behind hs := by
  rw [behind, List.map_append, List.flatten_append, behind, behind]

lemma slashed_cons (g : List Char) (gs : List (List Char)) : slashed (g :: gs) = g ++ behind gs := by
  induction gs generalizing g with
  | nil => simp [slashed]
  | cons g' gs ih =>
    have hcons : slashed (g :: g' :: gs) = g ++ ['/'] ++ slashed (g' :: gs) :=
      List.intercalate_cons_of_ne_nil (List.cons_ne_nil _ _)
    rw [hcons, ih, List.append_assoc, List.singleton_append, behind_cons]

/-! ### The expressions -/

lemma matches_text {t : String} {b e : Bool} {m : List Char} : Matches (text t) b m e ↔ m = t.toList :=
  Denotes.lit t.toList b m e

lemma matches_segment {b e : Bool} {m : List Char} : Matches segment b m e ↔ Name m :=
  Regex.matches_plus_char

lemma matches_extension {b e : Bool} {m : List Char} : Matches extension b m e ↔ Ext m :=
  Regex.matches_plus_char

/-- A name behind a slash. -/
def below : Language Char := {m | ∃ n, Name n ∧ m = '/' :: n}

lemma matches_segments {b e : Bool} {m : List Char} :
    Matches segments b m e ↔ ∃ ns, (∀ n ∈ ns, Name n) ∧ m = behind ns := by
  have hslash : Denotes (.seq (text "/") segment) below := by
    intro b m e
    rw [Regex.matches_seq]
    constructor
    · rintro ⟨_, n, rfl, hslash, hn⟩
      rw [matches_text.mp hslash]
      exact ⟨n, matches_segment.mp hn, rfl⟩
    · rintro ⟨n, hn, rfl⟩
      exact ⟨['/'], n, rfl, matches_text.mpr rfl, matches_segment.mpr hn⟩
  rw [segments, hslash.star b m e, Language.mem_kstar]
  constructor
  · rintro ⟨ms, rfl, hms⟩
    induction ms with
    | nil => exact ⟨[], List.forall_mem_nil _, rfl⟩
    | cons m ms ih =>
      rw [List.forall_mem_cons] at hms
      obtain ⟨ns, hns, heq⟩ := ih hms.2
      obtain ⟨n, hn, rfl⟩ := hms.1
      exact ⟨n :: ns, List.forall_mem_cons.mpr ⟨hn, hns⟩, by rw [List.flatten_cons, heq, behind_cons]; rfl⟩
  · rintro ⟨ns, hns, rfl⟩
    refine ⟨ns.map ('/' :: ·), rfl, fun m hm => ?_⟩
    obtain ⟨n, hn, rfl⟩ := List.mem_map.mp hm
    exact ⟨n, hns n hn, rfl⟩

lemma search_simple : Search patSimple s ↔ ∃ n ns, Name n ∧ (∀ n ∈ ns, Name n) ∧ s = slashed (n :: ns) := by
  rw [patSimple, Regex.search_whole]
  simp only [Regex.matches_seq, matches_segment, matches_segments, slashed_cons]
  constructor
  · rintro ⟨n, _, rfl, hn, ns, hns, rfl⟩
    exact ⟨n, ns, hn, hns, rfl⟩
  · rintro ⟨n, ns, hn, hns, rfl⟩
    exact ⟨n, _, rfl, hn, ns, hns, rfl⟩

lemma search_star : Search patStar s ↔
    (∃ n, Name n ∧ s = slashed [globstar, n]) ∨ (∃ w, Wild w ∧ s = slashed [w]) ∨
      ∃ n w, Name n ∧ Wild w ∧ s = slashed [n, w] := by
  rw [patStar, Regex.search_whole]
  simp only [Regex.oneOf, Regex.seqs, Regex.matches_alt, Regex.matches_seq, Regex.matches_eps, matches_text,
    matches_segment, matches_extension, slashed_cons, behind_cons, behind_nil, List.append_nil]
  constructor
  · rintro (rfl | ⟨_, n, rfl, rfl, hn⟩ | ⟨n, _, rfl, hn, rfl⟩ | ⟨n, _, rfl, hn, _, _, rfl, rfl, x, _, rfl, hx, rfl⟩ |
      ⟨_, x, rfl, rfl, hx⟩)
    · exact .inr (.inl ⟨star, .inl rfl, rfl⟩)
    · exact .inl ⟨n, hn, rfl⟩
    · exact .inr (.inr ⟨n, star, hn, .inl rfl, rfl⟩)
    · exact .inr (.inr ⟨n, starExt x, hn, .inr ⟨x, hx, rfl⟩, by simp [starExt]⟩)
    · exact .inr (.inl ⟨starExt x, .inr ⟨x, hx, rfl⟩, rfl⟩)
  · rintro (⟨n, hn, rfl⟩ | ⟨w, rfl | ⟨x, hx, rfl⟩, rfl⟩ | ⟨n, w, hn, rfl | ⟨x, hx, rfl⟩, rfl⟩)
    · exact .inr (.inl ⟨_, n, rfl, rfl, hn⟩)
    · exact .inl rfl
    · exact .inr (.inr (.inr (.inr ⟨_, x, rfl, rfl, hx⟩)))
    · exact .inr (.inr (.inl ⟨n, _, rfl, hn, rfl⟩))
    · exact .inr (.inr (.inr (.inl ⟨n, _, rfl, hn, _, x, rfl, rfl, x, [], by simp, hx, rfl⟩)))

lemma search_globstar : Search patGlobstar s ↔
    ∃ n ns, Name n ∧ (∀ n ∈ ns, Name n) ∧ s = slashed (globstar :: n :: ns) := by
  rw [patGlobstar, Regex.search_whole]
  simp only [Regex.seqs, Regex.matches_seq, Regex.matches_eps, matches_text, matches_segment, matches_segments,
    slashed_cons, behind_cons]
  constructor
  · rintro ⟨_, _, rfl, rfl, n, _, rfl, hn, _, _, rfl, ⟨ns, hns, rfl⟩, rfl⟩
    exact ⟨n, ns, hn, hns, by simp [globstar]⟩
  · rintro ⟨n, ns, hn, hns, rfl⟩
    exact ⟨_, n ++ behind ns, rfl, rfl, n, behind ns, rfl, hn, _, [], by simp, ⟨ns, hns, rfl⟩, rfl⟩

lemma search_globstarExt : Search patGlobstarExt s ↔ ∃ e, Ext e ∧ s = slashed [globstar, starExt e] := by
  rw [patGlobstarExt, Regex.search_whole]
  simp only [Regex.matches_seq, matches_text, matches_extension, slashed_cons, behind_cons, behind_nil,
    List.append_nil]
  constructor
  · rintro ⟨_, x, rfl, rfl, hx⟩
    exact ⟨x, hx, rfl⟩
  · rintro ⟨x, hx, rfl⟩
    exact ⟨_, x, rfl, rfl, hx⟩

lemma search_trailingGlobstar : Search patTrailingGlobstar s ↔
    ∃ n ns, Name n ∧ (∀ n ∈ ns, Name n) ∧ s = slashed (n :: ns ++ [globstar]) := by
  rw [patTrailingGlobstar, Regex.search_whole]
  simp only [Regex.seqs, Regex.matches_seq, Regex.matches_eps, matches_text, matches_segment, matches_segments,
    List.cons_append, slashed_cons, behind_append, behind_cons, behind_nil, List.append_nil]
  constructor
  · rintro ⟨n, _, rfl, hn, _, _, rfl, ⟨ns, hns, rfl⟩, _, _, rfl, rfl, rfl⟩
    exact ⟨n, ns, hn, hns, by simp [globstar]⟩
  · rintro ⟨n, ns, hn, hns, rfl⟩
    exact ⟨n, _, rfl, hn, behind ns, _, rfl, ⟨ns, hns, rfl⟩, _, [], by simp [globstar], rfl, rfl⟩

lemma search_middleGlobstar : Search patMiddleGlobstar s ↔
    ∃ ks n ns, ks.length ≤ 1 ∧ (∀ k ∈ ks, Name k) ∧ Name n ∧ (∀ n ∈ ns, Name n) ∧
      s = slashed (ks ++ globstar :: n :: ns) := by
  rw [patMiddleGlobstar, Regex.search_whole]
  simp only [Regex.seqs, Regex.opt, Regex.matches_seq, Regex.matches_alt, Regex.matches_eps, matches_text,
    matches_segment, matches_segments]
  constructor
  · rintro ⟨_, _, rfl, hprefix, _, _, rfl, rfl, n, _, rfl, hn, _, _, rfl, ⟨ns, hns, rfl⟩, rfl⟩
    rcases hprefix with ⟨k, _, rfl, hk, rfl⟩ | rfl
    · exact ⟨[k], n, ns, le_rfl, List.forall_mem_singleton.mpr hk, hn, hns, by simp [slashed_cons, globstar]⟩
    · exact ⟨[], n, ns, Nat.zero_le _, List.forall_mem_nil _, hn, hns, by simp [slashed_cons, globstar]⟩
  · rintro ⟨ks, n, ns, hlen, hks, hn, hns, rfl⟩
    have hrest : ∃ m₁ m₂, globstar ++ '/' :: (n ++ behind ns) = m₁ ++ m₂ ∧ m₁ = "**/".toList ∧
        ∃ m₃ m₄, m₂ = m₃ ++ m₄ ∧ Name m₃ ∧ ∃ m₅ m₆, m₄ = m₅ ++ m₆ ∧
          (∃ ns, (∀ n ∈ ns, Name n) ∧ m₅ = behind ns) ∧ m₆ = [] :=
      ⟨_, n ++ behind ns, rfl, rfl, n, behind ns, rfl, hn, _, [], by simp, ⟨ns, hns, rfl⟩, rfl⟩
    cases ks with
    | nil => exact ⟨[], _, by simp [slashed_cons], .inr rfl, hrest⟩
    | cons k ks =>
      have hk := hks k List.mem_cons_self
      obtain rfl : ks = [] := List.length_eq_zero_iff.mp (Nat.le_zero.mp (Nat.le_of_succ_le_succ hlen))
      exact ⟨k ++ ['/'], _, by simp [slashed_cons], .inl ⟨k, ['/'], rfl, hk, rfl⟩, hrest⟩

lemma search_prefixGlobstarExt : Search patPrefixGlobstarExt s ↔
    ∃ n ns e, Name n ∧ (∀ n ∈ ns, Name n) ∧ Ext e ∧ s = slashed (n :: ns ++ [globstar, starExt e]) := by
  rw [patPrefixGlobstarExt, Regex.search_whole]
  simp only [Regex.seqs, Regex.matches_seq, Regex.matches_eps, matches_text, matches_segment, matches_segments,
    matches_extension, List.cons_append, slashed_cons, behind_append, behind_cons, behind_nil, List.append_nil]
  constructor
  · rintro ⟨n, _, rfl, hn, _, _, rfl, ⟨ns, hns, rfl⟩, _, _, rfl, rfl, x, _, rfl, hx, rfl⟩
    exact ⟨n, ns, x, hn, hns, hx, by simp [globstar, starExt]⟩
  · rintro ⟨n, ns, x, hn, hns, hx, rfl⟩
    exact ⟨n, _, rfl, hn, behind ns, _, rfl, ⟨ns, hns, rfl⟩, "/**/*.".toList, x, by simp [globstar, starExt], rfl,
      x, [], by simp, hx, rfl⟩

/-! ### What is taken -/

lemma isValid_eq_true {p : String} :
    isValidGitignorePattern p = true ↔ p ≠ "" ∧
      (Search patSimple p.toList ∨ Search patStar p.toList ∨ Search patGlobstar p.toList ∨
        Search patGlobstarExt p.toList ∨ Search patTrailingGlobstar p.toList ∨
        Search patMiddleGlobstar p.toList ∨ Search patPrefixGlobstarExt p.toList) := by
  simp only [isValidGitignorePattern, Bool.and_eq_true, decide_eq_true_eq, List.any_cons, List.any_nil,
    Bool.or_eq_true, Regex.test_eq_true, Bool.false_eq_true, or_false]

lemma slashed_ne_nil (hne : gs ≠ []) (h : ∀ g ∈ gs, g ≠ []) : slashed gs ≠ [] := by
  cases gs with
  | nil => exact absurd rfl hne
  | cons g gs =>
    rw [slashed_cons]
    exact List.append_ne_nil_of_left_ne_nil (h g List.mem_cons_self) _

lemma Wild.ne_nil {w : List Char} (h : Wild w) : w ≠ [] := by
  rcases h with rfl | ⟨e, -, rfl⟩
  · exact List.cons_ne_nil _ _
  · exact List.cons_ne_nil _ _

/-- What the segments of a pattern are. -/
lemma Ending.segment {k : ℕ} (h : Ending k tail) : ∀ g ∈ tail, Name g ∨ Wild g ∨ g = PathPatterns.globstar := by
  cases h with
  | plain => exact List.forall_mem_nil _
  | wild _ hw => exact List.forall_mem_singleton.mpr (.inr (.inl hw))
  | globstar => exact List.forall_mem_singleton.mpr (.inr (.inr rfl))
  | globstarExt he =>
    exact List.forall_mem_cons.mpr ⟨.inr (.inr rfl), List.forall_mem_singleton.mpr (.inr (.inl (.inr ⟨_, he, rfl⟩)))⟩
  | globstarNames _ _ hms => exact List.forall_mem_cons.mpr ⟨.inr (.inr rfl), fun m hm => .inl (hms m hm)⟩

lemma Pattern.segment (h : Pattern gs) : ∀ g ∈ gs, Name g ∨ Wild g ∨ g = globstar := by
  obtain ⟨hns, h⟩ := h
  exact List.forall_mem_append.mpr ⟨fun n hn => .inl (hns n hn), h.segment⟩

lemma Pattern.ne_nil (h : Pattern gs) : gs ≠ [] := by
  obtain @⟨ns, tail, hns, h⟩ := h
  cases h with
  | plain hk => exact List.append_ne_nil_of_left_ne_nil (List.ne_nil_of_length_pos hk) _
  | _ => simp

lemma segment_ne_nil {g : List Char} (h : Name g ∨ Wild g ∨ g = globstar) : g ≠ [] := by
  rcases h with h | h | rfl
  · exact h.1
  · exact h.ne_nil
  · exact List.cons_ne_nil _ _

/-- **The patterns that are taken**: names, and one of the endings that may follow them. -/
theorem isValid_iff {p : String} :
    isValidGitignorePattern p = true ↔ ∃ gs, Pattern gs ∧ p.toList = slashed gs := by
  rw [isValid_eq_true, search_simple, search_star, search_globstar, search_globstarExt,
    search_trailingGlobstar, search_middleGlobstar, search_prefixGlobstarExt]
  constructor
  · rintro ⟨-, ⟨n, ns, hn, hns, heq⟩ | (⟨n, hn, heq⟩ | ⟨w, hw, heq⟩ | ⟨n, w, hn, hw, heq⟩) |
      ⟨n, ns, hn, hns, heq⟩ | ⟨x, hx, heq⟩ | ⟨n, ns, hn, hns, heq⟩ | ⟨ks, n, ns, hlen, hks, hn, hns, heq⟩ |
      ⟨n, ns, x, hn, hns, hx, heq⟩⟩
    · refine ⟨_, .mk (List.forall_mem_cons.mpr ⟨hn, hns⟩) (.plain (Nat.succ_pos _)), ?_⟩
      rw [List.append_nil, heq]
    · exact ⟨_, .mk (List.forall_mem_nil _) (.globstarNames (Nat.zero_le _) (List.cons_ne_nil n [])
        (List.forall_mem_singleton.mpr hn)), heq⟩
    · exact ⟨_, .mk (List.forall_mem_nil _) (.wild (Nat.zero_le _) hw), heq⟩
    · exact ⟨_, .mk (List.forall_mem_singleton.mpr hn) (.wild le_rfl hw), heq⟩
    · exact ⟨_, .mk (List.forall_mem_nil _) (.globstarNames (Nat.zero_le _) (List.cons_ne_nil n ns)
        (List.forall_mem_cons.mpr ⟨hn, hns⟩)), heq⟩
    · exact ⟨_, .mk (List.forall_mem_nil _) (.globstarExt hx), heq⟩
    · exact ⟨_, .mk (List.forall_mem_cons.mpr ⟨hn, hns⟩) (.globstar (Nat.succ_pos _)), heq⟩
    · exact ⟨_, .mk hks (.globstarNames hlen (List.cons_ne_nil n ns) (List.forall_mem_cons.mpr ⟨hn, hns⟩)), heq⟩
    · exact ⟨_, .mk (List.forall_mem_cons.mpr ⟨hn, hns⟩) (.globstarExt hx), heq⟩
  · rintro ⟨gs, hpattern, heq⟩
    have hne : p ≠ "" := by
      rintro rfl
      exact slashed_ne_nil hpattern.ne_nil (fun g hg => segment_ne_nil (hpattern.segment g hg)) heq.symm
    refine ⟨hne, ?_⟩
    obtain @⟨ns, tail, hns, h⟩ := hpattern
    cases h with
    | plain hk =>
      cases ns with
      | nil => cases hk
      | cons n ns =>
        rw [List.forall_mem_cons] at hns
        exact .inl ⟨n, ns, hns.1, hns.2, by rw [heq, List.append_nil]⟩
    | @wild w hk hw =>
      match ns, hk with
      | [], _ => exact .inr (.inl (.inr (.inl ⟨w, hw, heq⟩)))
      | [n], _ => exact .inr (.inl (.inr (.inr ⟨n, w, hns n List.mem_cons_self, hw, heq⟩)))
    | globstar hk =>
      cases ns with
      | nil => cases hk
      | cons n ns =>
        rw [List.forall_mem_cons] at hns
        exact .inr (.inr (.inr (.inr (.inl ⟨n, ns, hns.1, hns.2, heq⟩))))
    | @globstarExt x hx =>
      cases ns with
      | nil => exact .inr (.inr (.inr (.inl ⟨x, hx, heq⟩)))
      | cons n ns =>
        rw [List.forall_mem_cons] at hns
        exact .inr (.inr (.inr (.inr (.inr (.inr ⟨n, ns, x, hns.1, hns.2, hx, heq⟩)))))
    | @globstarNames ms hk hms hnames =>
      cases ms with
      | nil => exact absurd rfl hms
      | cons m ms =>
        rw [List.forall_mem_cons] at hnames
        exact .inr (.inr (.inr (.inr (.inr (.inl ⟨ns, m, ms, hk, hns, hnames.1, hnames.2, heq⟩)))))

/-! ### Splitting -/

lemma not_slash_of_name (h : Name n) : '/' ∉ n := by
  intro hmem
  have hchar := h.2 '/' hmem
  revert hchar
  decide

lemma not_slash_of_segment {g : List Char} (h : Name g ∨ Wild g ∨ g = globstar) : '/' ∉ g := by
  rcases h with h | (rfl | ⟨e, he, rfl⟩) | rfl
  · exact not_slash_of_name h
  · decide
  · intro hmem
    simp only [starExt, List.mem_cons] at hmem
    rcases hmem with hc | hc | hmem
    · cases hc
    · cases hc
    · have halnum := he.2 '/' hmem
      revert halnum
      decide
  · decide

/-- Splitting a pattern at its slashes gives the segments it is made of. -/
lemma pathParts_of_pattern {p : String} (h : Pattern gs) (heq : p.toList = slashed gs) :
    Text.pathParts p = gs := by
  rw [Text.pathParts, heq, slashed]
  exact List.splitOn_intercalate '/' (fun g hg => not_slash_of_segment (h.segment g hg)) h.ne_nil

lemma isValid_iff_parts {p : String} : isValidGitignorePattern p = true ↔ Pattern (Text.pathParts p) := by
  rw [isValid_iff]
  constructor
  · rintro ⟨gs, h, heq⟩
    rwa [pathParts_of_pattern h heq]
  · exact fun h => ⟨_, h, (List.intercalate_splitOn '/').symm⟩

/-! ### Well formed patterns -/

/-- What the segments of a pattern have to be. -/
structure WellFormed (gs : List (List Char)) : Prop where
  ne_nil : ∀ g ∈ gs, g ≠ []
  segment : ∀ g ∈ gs, Name g ∨ g = star ∨ (∃ e, Ext e ∧ g = starExt e) ∨ g = globstar
  once : gs.count globstar ≤ 1
  last : ∀ before g after, gs = before ++ g :: after → Wild g → after = []
  alone : gs ≠ [globstar]

lemma not_name_of_star {g : List Char} (h : g.head? = some '*') : ¬ Name g := by
  intro hname
  have hchar := hname.2 '*' (List.mem_of_head? h)
  revert hchar
  decide

lemma Wild.head {w : List Char} (h : Wild w) : w.head? = some '*' := by
  rcases h with rfl | ⟨e, -, rfl⟩
  · rfl
  · rfl

lemma Wild.ne_globstar {w : List Char} (h : Wild w) : w ≠ globstar := by
  rcases h with rfl | ⟨e, -, rfl⟩
  · decide
  · intro heq
    rw [starExt, globstar, List.cons.injEq, List.cons.injEq] at heq
    cases heq.2.1

lemma count_globstar_names (h : ∀ n ∈ ns, Name n) : ns.count globstar = 0 :=
  List.count_eq_zero.mpr fun hmem => not_name_of_star rfl (h globstar hmem)

lemma Ending.count_le {k : ℕ} (h : Ending k tail) : tail.count PathPatterns.globstar ≤ 1 := by
  cases h with
  | plain => exact Nat.zero_le _
  | wild _ hw => simp [hw.ne_globstar]
  | globstar => simp
  | @globstarExt e he =>
    have hne : starExt e ≠ PathPatterns.globstar := Wild.ne_globstar (.inr ⟨e, he, rfl⟩)
    simp [hne]
  | globstarNames _ _ hms => rw [List.count_cons_self, count_globstar_names hms]

/-- Before a wildcard there are no other ones, and nothing is behind it. -/
lemma Ending.last {k : ℕ} (h : Ending k tail) {before after : List (List Char)} {g : List Char}
    (heq : tail = before ++ g :: after) (hg : Wild g) : after = [] := by
  have hmem : g ∈ tail := by simp [heq]
  cases h with
  | plain => cases hmem
  | wild =>
    cases before with
    | nil => exact ((List.cons.inj heq).2).symm
    | cons => simp at heq
  | globstar => exact absurd (List.mem_singleton.mp hmem) hg.ne_globstar
  | globstarExt =>
    match before with
    | [] => exact absurd (List.cons.inj heq).1.symm hg.ne_globstar
    | [_] =>
      simp only [List.singleton_append, List.cons.injEq] at heq
      exact heq.2.2.symm
    | _ :: _ :: _ => simp at heq
  | globstarNames _ _ hms =>
    rcases List.mem_cons.mp hmem with rfl | hmem
    · exact absurd rfl hg.ne_globstar
    · exact absurd (hms g hmem) (not_name_of_star hg.head)

lemma Pattern.wellFormed (h : Pattern gs) : WellFormed gs := by
  have hsegment := h.segment
  obtain @⟨ns, tail, hns, hend⟩ := h
  refine ⟨fun g hg => segment_ne_nil (hsegment g hg), fun g hg => ?_, ?_, ?_, ?_⟩
  · rcases hsegment g hg with hname | (hstar | hext) | hglob
    · exact .inl hname
    · exact .inr (.inl hstar)
    · exact .inr (.inr (.inl hext))
    · exact .inr (.inr (.inr hglob))
  · rw [List.count_append, count_globstar_names hns, Nat.zero_add]
    exact hend.count_le
  · intro before g after heq hg
    rcases List.append_eq_append_iff.mp heq with ⟨a, rfl, htail⟩ | ⟨a, hbefore, hrest⟩
    · exact hend.last htail hg
    · cases a with
      | nil =>
        rw [List.nil_append] at hrest
        have hsplit : tail = [] ++ g :: after := hrest.symm
        exact hend.last hsplit hg
      | cons x a =>
        rw [List.cons_append, List.cons.injEq] at hrest
        have hname : Name g := hns g (by simp [hbefore, hrest.1])
        exact absurd hname (not_name_of_star hg.head)
  · intro heq
    cases ns with
    | nil =>
      rw [List.nil_append] at heq
      rw [heq, List.length_nil] at hend
      cases hend with
      | wild _ hw => exact hw.ne_globstar rfl
      | globstar hk => cases hk
      | globstarNames _ hne _ => exact hne rfl
    | cons n ns =>
      rw [List.cons_append, List.cons.injEq] at heq
      exact not_name_of_star (by rw [heq.1]; rfl) (hns n List.mem_cons_self)

/-- **Path patterns are well formed.** -/
theorem valid_wellFormed (p : String) (h : isValidGitignorePattern p = true) :
    WellFormed (Text.pathParts p) :=
  (isValid_iff_parts.mp h).wellFormed

theorem valid_wellFormed_docs : WellFormed (Text.pathParts "docs/**/*.md") :=
  valid_wellFormed "docs/**/*.md" (by decide)

/-! ### In a directory -/

/-- One name, and an ending that may follow one name at most. -/
inductive Shallow : List (List Char) → Prop
  | wild {n w : List Char} (hn : Name n) (hw : Wild w) : Shallow [n, w]
  | globstarNames {n : List Char} {ms : List (List Char)} (hn : Name n) (hne : ms ≠ [])
      (hms : ∀ m ∈ ms, Name m) : Shallow (n :: globstar :: ms)

/-- An ending does not begin with a name. -/
lemma Ending.not_name {k : ℕ} (h : Ending k (n :: tail)) : ¬ Name n := by
  cases h with
  | wild _ hw => exact not_name_of_star hw.head
  | globstar => exact not_name_of_star rfl
  | globstarExt => exact not_name_of_star rfl
  | globstarNames => exact not_name_of_star rfl

/-- Which names there are before the ending is settled. -/
lemma Pattern.ending {k : ℕ} (h : Pattern (ns ++ tail)) (hns : ∀ n ∈ ns, Name n) (hend : Ending k tail) :
    Ending ns.length tail := by
  generalize heq : ns ++ tail = gs at h
  obtain @⟨ns', tail', hns', hend'⟩ := h
  rcases List.append_eq_append_iff.mp heq with ⟨a, rfl, htail⟩ | ⟨a, rfl, htail⟩
  · cases a with
    | nil =>
      rw [List.append_nil] at hend'
      rwa [htail, List.nil_append]
    | cons x a =>
      rw [htail, List.cons_append] at hend
      exact absurd (hns' x (by simp)) hend.not_name
  · cases a with
    | nil =>
      rw [htail, List.nil_append] at hend'
      rwa [List.append_nil]
    | cons x a =>
      rw [htail, List.cons_append] at hend'
      exact absurd (hns x (by simp)) hend'.not_name

lemma Shallow.first (h : Shallow gs) : ∀ g ∈ gs.head?, Name g := by
  cases h with
  | wild hn _ => exact fun g hg => Option.some.inj hg ▸ hn
  | globstarNames hn _ _ => exact fun g hg => Option.some.inj hg ▸ hn

/-- A shallow pattern ends in a name, or it is short and ends in a wildcard. -/
lemma Shallow.last (h : Shallow gs) {g : List Char} (hg : gs.getLast? = some g) :
    Name g ∨ Wild g ∧ gs.length = 2 := by
  cases h with
  | wild _ hw => exact .inr ⟨Option.some.inj hg ▸ hw, rfl⟩
  | globstarNames _ hne hms =>
    rw [List.getLast?_cons_cons, List.getLast?_cons_of_ne_nil hne] at hg
    exact .inl (hms g (List.mem_of_getLast? hg))

/-- One more name in front is taken exactly if the pattern is not a shallow one. -/
lemma Pattern.cons_iff (h : Pattern gs) {d : List Char} (hd : Name d) : Pattern (d :: gs) ↔ ¬ Shallow gs := by
  obtain @⟨ns, tail, hns, hend⟩ := h
  have hcons : ∀ n ∈ d :: ns, Name n := List.forall_mem_cons.mpr ⟨hd, hns⟩
  have hpattern : Pattern (d :: (ns ++ tail)) ↔ Ending (ns.length + 1) tail :=
    ⟨fun h => Pattern.ending (show Pattern ((d :: ns) ++ tail) from h) hcons hend, fun h => .mk hcons h⟩
  rw [hpattern]
  cases hend with
  | plain hk =>
    refine iff_of_true (.plain (Nat.succ_pos _)) fun hs => ?_
    rw [List.append_nil] at hs
    cases hs with
    | wild _ hw => exact not_name_of_star hw.head (hns _ (by simp))
    | globstarNames _ _ _ => exact not_name_of_star rfl (hns globstar (by simp))
  | @wild w hk hw =>
    match ns, hk with
    | [], _ =>
      refine iff_of_true (.wild le_rfl hw) fun hs => ?_
      exact not_name_of_star hw.head (hs.first w rfl)
    | [n], _ =>
      refine iff_of_false (fun hend => ?_) (not_not.mpr (.wild (hns n List.mem_cons_self) hw))
      cases hend with
      | wild hk _ => exact absurd hk (by simp)
      | globstar => exact hw.ne_globstar rfl
      | globstarNames hk _ _ => exact absurd hk (by simp)
  | globstar hk =>
    refine iff_of_true (.globstar (Nat.succ_pos _)) fun hs => ?_
    rcases hs.last List.getLast?_concat with hname | ⟨hw, -⟩
    · exact not_name_of_star rfl hname
    · exact hw.ne_globstar rfl
  | @globstarExt e he =>
    refine iff_of_true (.globstarExt he) fun hs => ?_
    have hlast : (ns ++ [globstar, starExt e]).getLast? = some (starExt e) := by simp
    rcases hs.last hlast with hname | ⟨-, hlen⟩
    · exact not_name_of_star rfl hname
    · have hnil : ns = [] := List.length_eq_zero_iff.mp (by simpa using hlen)
      rw [hnil] at hs
      exact not_name_of_star rfl (hs.first globstar rfl)
  | @globstarNames ms hk hne hms =>
    match ns, hk with
    | [], _ =>
      refine iff_of_true (.globstarNames le_rfl hne hms) fun hs => ?_
      exact not_name_of_star rfl (hs.first globstar rfl)
    | [n], _ =>
      refine iff_of_false (fun hend => ?_) (not_not.mpr (.globstarNames (hns n List.mem_cons_self) hne hms))
      cases hend with
      | wild hk _ => exact absurd hk (by simp)
      | globstar => exact hne rfl
      | globstarExt => exact not_name_of_star rfl (hms _ List.mem_cons_self)
      | globstarNames hk _ _ => exact absurd hk (by simp)

lemma pathParts_below {d : List Char} (hd : Name d) (p : String) :
    Text.pathParts (String.ofList (d ++ '/' :: p.toList)) = d :: Text.pathParts p := by
  rw [Text.pathParts, String.toList_ofList, Text.pathParts,
    List.splitOn_append_cons_self_of_not_mem (not_slash_of_name hd)]

/-- **Which patterns can be rooted in a directory**: all but the shallow ones. -/
theorem valid_below_iff (p : String) (d : List Char) (h : isValidGitignorePattern p = true) (hd : Name d) :
    isValidGitignorePattern (String.ofList (d ++ '/' :: p.toList)) = true ↔ ¬ Shallow (Text.pathParts p) := by
  rw [isValid_iff_parts, pathParts_below hd]
  exact (isValid_iff_parts.mp h).cons_iff hd

theorem valid_below_docs :
    isValidGitignorePattern (String.ofList (['a'] ++ '/' :: "docs/**".toList)) = true ↔
      ¬ Shallow (Text.pathParts "docs/**") :=
  valid_below_iff "docs/**" ['a'] (by decide) ⟨List.cons_ne_nil _ _, List.forall_mem_singleton.mpr rfl⟩

/-- The files of a kind in a directory are taken, those in a directory of a directory are not. -/
theorem not_valid_below :
    ¬ ∀ (p : String) (d : List Char), isValidGitignorePattern p = true → Name d →
      isValidGitignorePattern (String.ofList (d ++ '/' :: p.toList)) = true := by
  intro h
  have hvalid := h "foo/*.go" ['a'] (by decide) ⟨List.cons_ne_nil _ _, List.forall_mem_singleton.mpr rfl⟩
  revert hvalid
  decide

/-- Nor is a path at any depth below a directory of a directory. -/
example : isValidGitignorePattern "a/**/b" = true ∧ isValidGitignorePattern "x/a/**/b" = false := by decide

end KaitoAutoIndexer.PathPatterns
