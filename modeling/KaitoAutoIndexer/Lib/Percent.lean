import Mathlib

/-!
URLs: percent-encoding over UTF-8 bytes, as in a query component and as in a path, and the
segments of a path.
-/

namespace KaitoAutoIndexer.Lib.Percent

/-! ### Encoding -/

/-- Letters, digits, and the four marks that stand for themselves everywhere in a URL. -/
def unreserved (c : Char) : Bool :=
  c.isAlphanum || c == '-' || c == '_' || c == '.' || c == '~'

def utf8 (s : List Char) : List UInt8 := s.flatMap String.utf8EncodeChar

def hexDigit (n : ℕ) : Char := Char.ofNat (if n < 10 then 48 + n else 55 + n)

def percent (b : UInt8) : List Char := ['%', hexDigit (b.toNat / 16), hexDigit (b.toNat % 16)]

/-- One character of a query component; a space becomes a plus. -/
def escapeChar (c : Char) : List Char :=
  if unreserved c then [c] else if c = ' ' then ['+'] else (String.utf8EncodeChar c).flatMap percent

def queryEscape (s : List Char) : List Char := s.flatMap escapeChar

/-! ### Decoding -/

def hexValue (c : Char) : Option ℕ :=
  if '0' ≤ c ∧ c ≤ '9' then some (c.toNat - 48)
  else if 'A' ≤ c ∧ c ≤ 'F' then some (c.toNat - 55)
  else if 'a' ≤ c ∧ c ≤ 'f' then some (c.toNat - 87)
  else none

/-- The bytes of a component; in a query, where `plus` holds, a plus is a space. -/
def unescape (plus : Bool) : List Char → Option (List UInt8)
  | [] => some []
  | '%' :: h :: l :: rest => do
    let high ← hexValue h
    let low ← hexValue l
    let bytes ← unescape plus rest
    pure (UInt8.ofNat (16 * high + low) :: bytes)
  | c :: rest => do
    let bytes ← unescape plus rest
    if c = '%' then none
    else if plus ∧ c = '+' then pure (32 :: bytes)
    else pure (String.utf8EncodeChar c ++ bytes)

variable {plus : Bool}

lemma hexValue_hexDigit {n : ℕ} (h : n < 16) : hexValue (hexDigit n) = some n := by
  interval_cases n <;> decide

lemma unescape_percent (b : UInt8) (rest : List Char) :
    unescape plus (percent b ++ rest) = (unescape plus rest).map (b :: ·) := by
  have hb : b.toNat < 256 := b.toNat_lt_size
  have hhigh : hexValue (hexDigit (b.toNat / 16)) = some (b.toNat / 16) := hexValue_hexDigit (by omega)
  have hlow : hexValue (hexDigit (b.toNat % 16)) = some (b.toNat % 16) := hexValue_hexDigit (by omega)
  have hbyte : UInt8.ofNat (16 * (b.toNat / 16) + b.toNat % 16) = b := by
    rw [Nat.div_add_mod]
    simp
  simp only [percent, List.cons_append, List.nil_append, unescape, hhigh, hlow, Option.bind_eq_bind,
    Option.bind_some, hbyte]
  cases unescape plus rest <;> rfl

lemma unescape_cons {c : Char} (hp : c ≠ '%') (hplus : c ≠ '+') (rest : List Char) :
    unescape plus (c :: rest) = (unescape plus rest).map (String.utf8EncodeChar c ++ ·) := by
  rw [unescape.eq_3 plus c rest fun _ _ _ h => absurd h hp]
  cases unescape plus rest <;> simp [hp, hplus]

lemma ne_of_unreserved {c : Char} (h : unreserved c = true) : c ≠ '%' ∧ c ≠ '+' := by
  constructor <;> rintro rfl <;> revert h <;> decide

lemma unescape_flatMap_percent (bs : List UInt8) (rest : List Char) :
    unescape plus (bs.flatMap percent ++ rest) = (unescape plus rest).map (bs ++ ·) := by
  induction bs with
  | nil => simp
  | cons b bs ih =>
    rw [List.flatMap_cons, List.append_assoc, unescape_percent, ih, Option.map_map]
    rfl

/-- **What is escaped for a query is read back.** -/
theorem unescape_queryEscape (s : List Char) : unescape true (queryEscape s) = some (utf8 s) := by
  induction s with
  | nil => rfl
  | cons c s ih =>
    have hstep : unescape true (escapeChar c ++ queryEscape s) =
        (unescape true (queryEscape s)).map (String.utf8EncodeChar c ++ ·) := by
      unfold escapeChar
      split
      · rename_i hc
        exact unescape_cons (ne_of_unreserved hc).1 (ne_of_unreserved hc).2 _
      · split
        · rename_i hc
          subst hc
          rw [List.singleton_append, unescape.eq_3 true '+' _ (by simp)]
          cases unescape true (queryEscape s) <;> simp [show String.utf8EncodeChar ' ' = [32] from rfl]
        · exact unescape_flatMap_percent _ _
    unfold queryEscape at hstep ⊢
    rw [List.flatMap_cons, hstep, ← queryEscape, ih]
    rfl

lemma queryEscape_of_unreserved {s : List Char} (h : ∀ c ∈ s, unreserved c = true) :
    queryEscape s = s := by
  induction s with
  | nil => rfl
  | cons c s ih =>
    have hc : unreserved c = true := h c List.mem_cons_self
    unfold queryEscape at ih ⊢
    rw [List.flatMap_cons, ih fun d hd => h d (List.mem_cons_of_mem _ hd), escapeChar, if_pos hc]
    rfl

lemma unescape_of_unreserved {s : List Char} (h : ∀ c ∈ s, unreserved c = true) :
    unescape plus s = some (utf8 s) := by
  induction s with
  | nil => rfl
  | cons c s ih =>
    obtain ⟨hp, hplus⟩ := ne_of_unreserved (h c List.mem_cons_self)
    rw [unescape_cons hp hplus, ih fun d hd => h d (List.mem_cons_of_mem _ hd)]
    rfl

/-! ### The parts of a URL -/

/-- The part before the query and the fragment. -/
def beforeQuery (url : List Char) : List Char := url.takeWhile fun c => c ≠ '?' && c ≠ '#'

/-- What stands between the slashes: in `scheme://server/path` the scheme, an empty part, the
server and then the segments of the path. -/
def parts (url : List Char) : List (List Char) := (beforeQuery url).splitOn '/'

/-- A key and a value, cut at the first `=`. -/
def pair (p : List Char) : List Char × List Char :=
  (p.takeWhile (· ≠ '='), (p.dropWhile (· ≠ '=')).drop 1)

/-- The pairs of a query. -/
def pairs (query : List Char) : List (List Char × List Char) := (query.splitOn '&').map pair

/-- The query of a URL without a fragment. -/
def queryOf (url : List Char) : List Char := (url.dropWhile (· ≠ '?')).drop 1

/-- What may stand in an escaped component. -/
lemma mem_queryEscape {s : List Char} {c : Char} (h : c ∈ queryEscape s) :
    unreserved c = true ∨ c = '+' ∨ c = '%' := by
  obtain ⟨d, -, hd⟩ := List.mem_flatMap.mp h
  unfold escapeChar at hd
  split at hd
  · rename_i hu
    obtain rfl := List.mem_singleton.mp hd
    exact .inl hu
  · split at hd
    · exact .inr (.inl (List.mem_singleton.mp hd))
    · obtain ⟨b, -, hb⟩ := List.mem_flatMap.mp hd
      have hdigit : ∀ n < 16, unreserved (hexDigit n) = true := by
        intro n hn
        interval_cases n <;> decide
      have hlt : b.toNat < 256 := b.toNat_lt_size
      simp only [percent, List.mem_cons, List.not_mem_nil, or_false] at hb
      rcases hb with rfl | rfl | rfl
      · exact .inr (.inr rfl)
      · exact .inl (hdigit _ (by omega))
      · exact .inl (hdigit _ (by omega))

/-- A character that separates the parts of a URL. -/
def delimiter (c : Char) : Bool := c == '/' || c == '?' || c == '#' || c == '&' || c == '='

lemma not_delimiter_of_unreserved {c : Char} (h : unreserved c = true) : delimiter c = false := by
  by_contra hd
  simp only [delimiter, Bool.not_eq_false, Bool.or_eq_true, beq_iff_eq] at hd
  rcases hd with (((rfl | rfl) | rfl) | rfl) | rfl <;> revert h <;> decide

lemma not_delimiter_of_mem {s : List Char} {c : Char} (h : c ∈ queryEscape s) : delimiter c = false := by
  rcases mem_queryEscape h with h | rfl | rfl
  · exact not_delimiter_of_unreserved h
  · rfl
  · rfl

lemma beforeQuery_append {s t : List Char} (h : ∀ c ∈ s, c ≠ '?' ∧ c ≠ '#') :
    beforeQuery (s ++ t) = s ++ beforeQuery t := by
  unfold beforeQuery
  exact List.takeWhile_append_of_pos fun c hc => by simpa using h c hc

lemma beforeQuery_cons {c : Char} {s : List Char} (hc : c = '?' ∨ c = '#') :
    beforeQuery (c :: s) = [] := by
  unfold beforeQuery
  rcases hc with rfl | rfl <;> rfl

/-- One part is split off. -/
lemma parts_append {s t : List Char} (h : ∀ c ∈ s, delimiter c = false) :
    parts (s ++ '/' :: t) = s :: parts t := by
  have hfree : ∀ c ∈ s ++ ['/'], c ≠ '?' ∧ c ≠ '#' := by
    intro c hc
    rcases List.mem_append.mp hc with hc | hc
    · constructor <;> rintro rfl <;> exact absurd (h _ hc) (by decide)
    · rw [List.mem_singleton.mp hc]
      decide
  have hslash : '/' ∉ s := fun hm => absurd (h _ hm) (by decide)
  have hsplit : s ++ '/' :: t = (s ++ ['/']) ++ t := by simp
  unfold parts
  rw [hsplit, beforeQuery_append hfree, List.append_assoc, List.singleton_append,
    List.splitOn_append_cons_self_of_not_mem hslash]

/-- The last part, before the query. -/
lemma parts_last {s t : List Char} (h : ∀ c ∈ s, delimiter c = false)
    (ht : t = [] ∨ ∃ q, t = '?' :: q) : parts (s ++ t) = [s] := by
  have hfree : ∀ c ∈ s, c ≠ '?' ∧ c ≠ '#' := by
    intro c hc
    constructor <;> rintro rfl <;> exact absurd (h _ hc) (by decide)
  have hslash : '/' ∉ s := fun hm => absurd (h _ hm) (by decide)
  have hrest : beforeQuery t = [] := by
    rcases ht with rfl | ⟨q, rfl⟩
    · rfl
    · exact beforeQuery_cons (.inl rfl)
  unfold parts
  rw [beforeQuery_append hfree, hrest, List.append_nil, List.splitOn_eq_singleton hslash]

lemma queryOf_append {s t : List Char} (h : '?' ∉ s) : queryOf (s ++ '?' :: t) = t := by
  have hdrop : (s ++ '?' :: t).dropWhile (· ≠ '?') = '?' :: t := by
    rw [List.dropWhile_append_of_pos]
    · rfl
    · intro c hc
      simpa using fun hq : c = '?' => h (hq ▸ hc)
  unfold queryOf
  rw [hdrop]
  rfl

lemma pair_append {k v : List Char} (h : '=' ∉ k) : pair (k ++ '=' :: v) = (k, v) := by
  have hk : ∀ c ∈ k, decide (c ≠ '=') = true := by
    intro c hc
    simpa using fun he : c = '=' => h (he ▸ hc)
  unfold pair
  rw [List.takeWhile_append_of_pos hk, List.dropWhile_append_of_pos hk]
  simp

lemma pairs_append {p rest : List Char} (h : '&' ∉ p) :
    pairs (p ++ '&' :: rest) = pair p :: pairs rest := by
  unfold pairs
  rw [List.splitOn_append_cons_self_of_not_mem h, List.map_cons]

lemma pairs_last {p : List Char} (h : '&' ∉ p) : pairs p = [pair p] := by
  unfold pairs
  rw [List.splitOn_eq_singleton h]
  rfl

end KaitoAutoIndexer.Lib.Percent
