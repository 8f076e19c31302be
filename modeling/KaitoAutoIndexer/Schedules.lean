import KaitoAutoIndexer.Admission

/-!
The schedules that are accepted: the pattern that the API server searches for in `spec.schedule`,
and the check of the webhook. A step `*/m` is unknown to the pattern, and each anchor of it belongs
to one alternative only.
-/

namespace KaitoAutoIndexer.Schedules

open KaitoAutoIndexer.Lib KaitoAutoIndexer.Admission
open KaitoAutoIndexer.Lib.Regex (Matches Search Denotes)

/-! ### The pattern -/

/-- `\d+` -/
def number : Regex Char := .plus (.char Char.isDigit)

/-- `annually|yearly|monthly|weekly|daily|hourly|reboot` -/
def names : List String := ["annually", "yearly", "monthly", "weekly", "daily", "hourly", "reboot"]

/-- `ns|us|µs|ms|s|m|h` -/
def units : List String := ["ns", "us", "µs", "ms", "s", "m", "h"]

/-- One of these texts. -/
def oneOfTexts : List String → Regex Char
  | [] => .char fun _ => false
  | [s] => text s
  | s :: rest => .alt (text s) (oneOfTexts rest)

/-- `^(@(annually|yearly|monthly|weekly|daily|hourly|reboot))` -/
def patMacro : Regex Char := .seq .first (.seq (text "@") (oneOfTexts names))

/-- `(@every (\d+(ns|us|µs|ms|s|m|h))+)` -/
def patEvery : Regex Char := .seq (text "@every ") (.plus (.seq number (oneOfTexts units)))

/-- `(\d+,)+\d+|(\d+(\/|-)\d+)|\d+|\*` -/
def patField : Regex Char :=
  .oneOf (.seq (.plus (.seq number (text ","))) number)
    [.seqs [number, .alt (text "/") (text "-"), number], number, text "*"]

/-- `((((\d+,)+\d+|(\d+(\/|-)\d+)|\d+|\*) ?){5,7})$` -/
def patFields : Regex Char := .seq (.times (.seq patField (.opt (text " "))) 5 2) .last

/-- The pattern of `spec.schedule`. -/
def patSchedule : Regex Char := .alt patMacro (.alt patEvery patFields)

/-- The API server and the webhook take the schedule. -/
def Accepted (s : String) : Prop := Search patSchedule s.toList ∧ scheduleValidate s = []

/-! ### Schedules -/

def Number (s : List Char) : Prop := s ≠ [] ∧ ∀ c ∈ s, c.isDigit = true

/-- The fields that the pattern knows. -/
inductive Plain : List Char → Prop
  | any : Plain ['*']
  | number {n : List Char} (h : Number n) : Plain n
  | range {n m : List Char} (hn : Number n) (hm : Number m) : Plain (n ++ '-' :: m)
  | step {n m : List Char} (hn : Number n) (hm : Number m) : Plain (n ++ '/' :: m)
  | list {ns : List (List Char)} (hlen : 2 ≤ ns.length) (h : ∀ n ∈ ns, Number n) :
      Plain ([','].intercalate ns)

inductive Field : List Char → Prop
  | plain {f : List Char} (h : Plain f) : Field f
  | anyStep {m : List Char} (h : Number m) : Field ('*' :: '/' :: m)

/-- A number with its unit. -/
def Pair (x : List Char) : Prop := ∃ n u, Number n ∧ u ∈ units ∧ x = n ++ u.toList

/-- Five to seven fields, with one blank between them. -/
structure Fields (fields : List (List Char)) : Prop where
  five : 5 ≤ fields.length
  seven : fields.length ≤ 7
  field : ∀ f ∈ fields, Field f

/-- The fields of a schedule in a row; one blank may follow. -/
def joined (fields : List (List Char)) (blank : Bool) : List Char :=
  [' '].intercalate fields ++ if blank then [' '] else []

inductive Schedule : List Char → Prop
  | named {name : String} (h : name ∈ names) : Schedule ('@' :: name.toList)
  | every {pairs : List (List Char)} (hne : pairs ≠ []) (h : ∀ x ∈ pairs, Pair x) :
      Schedule ("@every ".toList ++ pairs.flatten)
  | fields {fields : List (List Char)} (h : Fields fields) (blank : Bool) :
      Schedule (joined fields blank)

/-! ### What the pattern finds -/

/-- A piece of the third alternative: a field, and perhaps a blank. -/
def Piece (x : List Char) : Prop := Plain x ∨ ∃ f, Plain f ∧ x = f ++ [' ']

def numbers : Language Char := {s | Number s}

def plainFields : Language Char := {s | Plain s}

def pairs : Language Char := {s | Pair s}

def pieces : Language Char := {s | Piece s}

lemma number_denotes : Denotes number numbers := fun _ _ _ => Regex.matches_plus_char

lemma matches_text {s : String} {b e : Bool} {m : List Char} : Matches (text s) b m e ↔ m = s.toList :=
  Denotes.lit s.toList b m e

lemma matches_oneOfTexts {l : List String} {b e : Bool} {m : List Char} :
    Matches (oneOfTexts l) b m e ↔ ∃ s ∈ l, m = s.toList := by
  fun_induction oneOfTexts l with
  | case1 => simp [Regex.matches_char]
  | case2 s => simp [matches_text]
  | case3 s rest _ ih => simp [Regex.matches_alt, matches_text, ih]

lemma pair_denotes : Denotes (.seq number (oneOfTexts units)) pairs := by
  intro b m e
  rw [Regex.matches_seq]
  constructor
  · rintro ⟨n, _, rfl, hn, hu⟩
    obtain ⟨u, hmem, rfl⟩ := matches_oneOfTexts.mp hu
    exact ⟨n, u, (number_denotes _ _ _).mp hn, hmem, rfl⟩
  · rintro ⟨n, u, hn, hu, rfl⟩
    exact ⟨n, u.toList, rfl, (number_denotes _ _ _).mpr hn, matches_oneOfTexts.mpr ⟨u, hu, rfl⟩⟩

/-- Numbers, each with a comma after it. -/
lemma intercalate_eq {ns : List (List Char)} {n : List Char} :
    [','].intercalate (ns ++ [n]) = (ns.map (· ++ [','])).flatten ++ n := by
  induction ns with
  | nil => simp
  | cons x ns ih =>
    rw [List.cons_append, List.intercalate_cons_of_ne_nil (by simp), ih]
    simp

lemma matches_list {b e : Bool} {m : List Char} :
    Matches (.seq (.plus (.seq number (text ","))) number) b m e ↔
      ∃ ns : List (List Char), 2 ≤ ns.length ∧ (∀ n ∈ ns, Number n) ∧ m = [','].intercalate ns := by
  have hcomma : Denotes (.seq number (text ",")) (numbers * {[',']}) :=
    number_denotes.seq (Denotes.lit [','])
  rw [Regex.matches_seq]
  constructor
  · rintro ⟨_, n, rfl, hns, hn⟩
    obtain ⟨ms, hne, hms, rfl⟩ := hcomma.plus_iff.mp hns
    have hnumber : Number n := (number_denotes _ _ _).mp hn
    have hcommas : ∃ ns : List (List Char), ms = ns.map (· ++ [',']) ∧ ∀ n ∈ ns, Number n := by
      clear hns hn hne
      induction ms with
      | nil => exact ⟨[], rfl, List.forall_mem_nil _⟩
      | cons x ms ih =>
        rw [List.forall_mem_cons] at hms
        obtain ⟨ns, rfl, hns⟩ := ih hms.2
        obtain ⟨x, hx, _, rfl, rfl⟩ := hms.1
        exact ⟨x :: ns, rfl, List.forall_mem_cons.mpr ⟨hx, hns⟩⟩
    obtain ⟨ns, rfl, hnumbers⟩ := hcommas
    have hpos : ns ≠ [] := fun h => hne (by rw [h]; rfl)
    refine ⟨ns ++ [n], ?_, ?_, intercalate_eq.symm⟩
    · have hlen := List.length_pos_iff.mpr hpos
      rw [List.length_append, List.length_singleton]
      omega
    · exact List.forall_mem_append.mpr ⟨hnumbers, List.forall_mem_singleton.mpr hnumber⟩
  · rintro ⟨ns, hlen, hns, rfl⟩
    obtain ⟨ns, n, rfl⟩ : ∃ ns' n, ns = ns' ++ [n] := by
      refine ⟨ns.dropLast, ns.getLast (by rintro rfl; simp at hlen), ?_⟩
      exact (List.dropLast_append_getLast _).symm
    rw [List.forall_mem_append, List.forall_mem_singleton] at hns
    refine ⟨_, n, intercalate_eq, hcomma.plus_iff.mpr ⟨ns.map (· ++ [',']), ?_, ?_, rfl⟩,
      (number_denotes _ _ _).mpr hns.2⟩
    · rintro hnil
      rw [List.map_eq_nil_iff] at hnil
      simp [hnil] at hlen
    · intro x hx
      obtain ⟨n', hn', rfl⟩ := List.mem_map.mp hx
      exact ⟨n', hns.1 n' hn', [','], rfl, rfl⟩

lemma matches_step {b e : Bool} {m : List Char} :
    Matches (.seqs [number, .alt (text "/") (text "-"), number]) b m e ↔
      ∃ n k, Number n ∧ Number k ∧ (m = n ++ '/' :: k ∨ m = n ++ '-' :: k) := by
  simp only [Regex.seqs, Regex.matches_seq, Regex.matches_alt, matches_text, Regex.matches_eps,
    number_denotes _ _ _]
  constructor
  · rintro ⟨n, _, rfl, hn, sep, _, rfl, hsep, k, _, rfl, hk, rfl⟩
    rw [List.append_nil]
    rcases hsep with rfl | rfl
    · exact ⟨n, k, hn, hk, .inl rfl⟩
    · exact ⟨n, k, hn, hk, .inr rfl⟩
  · rintro ⟨n, k, hn, hk, rfl | rfl⟩
    · exact ⟨n, '/' :: k, rfl, hn, ['/'], k, rfl, .inl rfl, k, [], by simp, hk, rfl⟩
    · exact ⟨n, '-' :: k, rfl, hn, ['-'], k, rfl, .inr rfl, k, [], by simp, hk, rfl⟩

lemma field_denotes : Denotes patField plainFields := by
  intro b m e
  simp only [patField, Regex.oneOf, Regex.matches_alt, matches_list, matches_step, matches_text,
    number_denotes _ _ _]
  constructor
  · rintro (⟨ns, hlen, hns, rfl⟩ | ⟨n, k, hn, hk, rfl | rfl⟩ | hn | rfl)
    · exact Plain.list hlen hns
    · exact Plain.step hn hk
    · exact Plain.range hn hk
    · exact Plain.number hn
    · exact Plain.any
  · rintro (_ | hn | ⟨hn, hk⟩ | ⟨hn, hk⟩ | ⟨hlen, hns⟩)
    · exact .inr (.inr (.inr rfl))
    · exact .inr (.inr (.inl hn))
    · exact .inr (.inl ⟨_, _, hn, hk, .inr rfl⟩)
    · exact .inr (.inl ⟨_, _, hn, hk, .inl rfl⟩)
    · exact .inl ⟨_, hlen, hns, rfl⟩

lemma piece_denotes : Denotes (.seq patField (.opt (text " "))) pieces := by
  intro b m e
  simp only [Regex.matches_seq, Regex.opt, Regex.matches_alt, matches_text, Regex.matches_eps,
    field_denotes _ _ _]
  constructor
  · rintro ⟨f, _, rfl, hf, rfl | rfl⟩
    · exact .inr ⟨f, hf, rfl⟩
    · rw [List.append_nil]
      exact .inl hf
  · rintro (hf | ⟨f, hf, rfl⟩)
    · exact ⟨m, [], (List.append_nil m).symm, hf, .inr rfl⟩
    · exact ⟨f, [' '], rfl, hf, .inl rfl⟩

def named : Language Char := {s | ∃ name ∈ names, s = '@' :: name.toList}

def intervals : Language Char :=
  {s | ∃ pairs : List (List Char), pairs ≠ [] ∧ (∀ x ∈ pairs, Pair x) ∧
    s = "@every ".toList ++ pairs.flatten}

def fieldLists : Language Char :=
  {s | ∃ ps : List (List Char), 5 ≤ ps.length ∧ ps.length ≤ 7 ∧ (∀ x ∈ ps, Piece x) ∧ s = ps.flatten}

lemma macro_denotes : Denotes (.seq (text "@") (oneOfTexts names)) named := by
  intro b m e
  simp only [Regex.matches_seq, matches_text, matches_oneOfTexts]
  constructor
  · rintro ⟨_, _, rfl, rfl, name, hname, rfl⟩
    exact ⟨name, hname, rfl⟩
  · rintro ⟨name, hname, rfl⟩
    exact ⟨['@'], name.toList, rfl, rfl, name, hname, rfl⟩

lemma every_denotes : Denotes patEvery intervals := by
  intro b m e
  rw [patEvery, Regex.matches_seq]
  constructor
  · rintro ⟨_, _, rfl, hat, hpairs⟩
    obtain ⟨ps, hne, hps, rfl⟩ := pair_denotes.plus_iff.mp hpairs
    rw [matches_text.mp hat]
    exact ⟨ps, hne, hps, rfl⟩
  · rintro ⟨pairs, hne, hpairs, rfl⟩
    exact ⟨_, _, rfl, matches_text.mpr rfl, pair_denotes.plus_iff.mpr ⟨pairs, hne, hpairs, rfl⟩⟩

lemma fields_denotes : Denotes (.times (.seq patField (.opt (text " "))) 5 2) fieldLists :=
  fun _ _ _ => piece_denotes.times_iff

/-- The text begins with the name of a schedule. -/
def BeginsNamed (s : List Char) : Prop := ∃ name ∈ names, '@' :: name.toList <+: s

/-- There is an interval somewhere in the text. -/
def HasInterval (s : List Char) : Prop :=
  ∃ pairs : List (List Char), pairs ≠ [] ∧ (∀ x ∈ pairs, Pair x) ∧
    "@every ".toList ++ pairs.flatten <:+: s

/-- The text ends in five to seven fields that the pattern knows, with blanks between them or
without. -/
def EndsInFields (s : List Char) : Prop :=
  ∃ ps : List (List Char), 5 ≤ ps.length ∧ ps.length ≤ 7 ∧ (∀ x ∈ ps, Piece x) ∧ ps.flatten <:+ s

/-- **What the pattern finds**: each anchor belongs to its alternative. -/
theorem search_patSchedule {s : List Char} :
    Search patSchedule s ↔ BeginsNamed s ∨ HasInterval s ∨ EndsInFields s := by
  have hnamed : Search patMacro s ↔ BeginsNamed s := by
    rw [patMacro, macro_denotes.search_first]
    constructor
    · rintro ⟨_, ⟨name, hname, rfl⟩, h⟩
      exact ⟨name, hname, h⟩
    · rintro ⟨name, hname, h⟩
      exact ⟨_, ⟨name, hname, rfl⟩, h⟩
  have hevery : Search patEvery s ↔ HasInterval s := by
    rw [every_denotes.search]
    constructor
    · rintro ⟨_, ⟨pairs, hne, hpairs, rfl⟩, h⟩
      exact ⟨pairs, hne, hpairs, h⟩
    · rintro ⟨pairs, hne, hpairs, h⟩
      exact ⟨_, ⟨pairs, hne, hpairs, rfl⟩, h⟩
  have hfields : Search patFields s ↔ EndsInFields s := by
    rw [patFields, fields_denotes.search_last]
    constructor
    · rintro ⟨_, ⟨ps, h5, h7, hps, rfl⟩, h⟩
      exact ⟨ps, h5, h7, hps, h⟩
    · rintro ⟨ps, h5, h7, hps, h⟩
      exact ⟨_, ⟨ps, h5, h7, hps, rfl⟩, h⟩
  rw [patSchedule, Regex.search_alt, Regex.search_alt, hnamed, hevery, hfields]

/-! ### Separators follow digits -/

def isSep (c : Char) : Bool := c == ',' || c == '/' || c == '-'

def isCell (c : Char) : Bool := c.isDigit || c == '*'

def seps (s : List Char) : ℕ := s.countP isSep

def cells (s : List Char) : ℕ := s.countP isCell

@[simp] lemma seps_nil : seps [] = 0 := rfl

@[simp] lemma cells_nil : cells [] = 0 := rfl

@[simp] lemma seps_append (s t : List Char) : seps (s ++ t) = seps s + seps t := List.countP_append

@[simp] lemma cells_append (s t : List Char) : cells (s ++ t) = cells s + cells t :=
  List.countP_append

lemma seps_cons (c : Char) (s : List Char) : seps (c :: s) = seps s + if isSep c then 1 else 0 :=
  List.countP_cons

lemma cells_cons (c : Char) (s : List Char) : cells (c :: s) = cells s + if isCell c then 1 else 0 :=
  List.countP_cons

/-- A separator follows a digit. -/
def Follows (a c : Char) : Prop := isSep c = true → a.isDigit = true

/-- Every separator of the text follows a digit. -/
def Chained (s : List Char) : Prop := List.IsChain Follows (' ' :: s)

lemma isSep_of_isDigit {c : Char} (h : c.isDigit = true) : isSep c = false := by
  by_contra hsep
  rw [Bool.not_eq_false] at hsep
  simp only [isSep, Bool.or_eq_true, beq_iff_eq] at hsep
  rcases hsep with (rfl | rfl) | rfl <;> revert h <;> decide

lemma isCell_of_isSep {c : Char} (h : isSep c = true) : isCell c = false := by
  simp only [isSep, Bool.or_eq_true, beq_iff_eq] at h
  rcases h with (rfl | rfl) | rfl <;> rfl

lemma isCell_of_isDigit {c : Char} (h : c.isDigit = true) : isCell c = true := by
  rw [isCell, h, Bool.true_or]

lemma seps_le_cells_cons {a : Char} {s : List Char} (h : List.IsChain Follows (a :: s)) :
    seps s ≤ cells (a :: s) := by
  induction s generalizing a with
  | nil => exact Nat.zero_le _
  | cons c s ih =>
    rw [List.isChain_cons_cons] at h
    have hrest := ih h.2
    rw [cells_cons] at hrest
    rw [seps_cons, cells_cons, cells_cons]
    by_cases hc : isSep c = true
    · have ha : isCell a = true := by
        simp [isCell, h.1 hc]
      rw [if_pos ha, if_pos hc]
      simp only [isCell_of_isSep hc, Bool.false_eq_true, if_false] at hrest ⊢
      omega
    · rw [if_neg hc]
      omega

lemma Chained.seps_le {s : List Char} (h : Chained s) : seps s ≤ cells s := by
  have hle := seps_le_cells_cons h
  rwa [cells_cons, if_neg (by decide), Nat.add_zero] at hle

lemma chained_nil : Chained [] := List.IsChain.singleton _

lemma Chained.append {s t : List Char} (hs : Chained s) (ht : Chained t) : Chained (s ++ t) := by
  unfold Chained at hs ht ⊢
  rw [← List.cons_append, List.isChain_append]
  refine ⟨hs, ht.tail, fun x _ y hy => ?_⟩
  intro hsep
  have hblank : (' ' : Char).isDigit = true := ht.rel_head? hy hsep
  exact absurd hblank (by decide)

lemma Chained.left {s t : List Char} (h : Chained (s ++ t)) : Chained s := by
  unfold Chained at h ⊢
  rw [← List.cons_append, List.isChain_append] at h
  exact h.1

lemma chained_flatten {l : List (List Char)} (h : ∀ x ∈ l, Chained x) : Chained l.flatten := by
  induction l with
  | nil => exact chained_nil
  | cons x l ih =>
    rw [List.forall_mem_cons] at h
    exact h.1.append (ih h.2)

lemma chained_of_not_sep {s : List Char} (h : ∀ c ∈ s, isSep c = false) : Chained s := by
  have hchain : ∀ a : Char, List.IsChain Follows (a :: s) := by
    induction s with
    | nil => exact fun a => .singleton a
    | cons c s ih =>
      rw [List.forall_mem_cons] at h
      refine fun a => List.isChain_cons_cons.mpr ⟨fun hsep => ?_, ih h.2 c⟩
      rw [h.1] at hsep
      cases hsep
  exact hchain ' '

lemma Chained.after {s : List Char} (h : Chained s) (a : Char) : List.IsChain Follows (a :: s) := by
  refine h.tail.cons fun y hy hsep => ?_
  have hblank : (' ' : Char).isDigit = true := h.rel_head? hy hsep
  exact absurd hblank (by decide)

section

variable {n m f : List Char} {ns : List (List Char)}

lemma Number.not_sep (h : Number n) : ∀ c ∈ n, isSep c = false := fun c hc => isSep_of_isDigit (h.2 c hc)

lemma Number.chained (h : Number n) : Chained n := chained_of_not_sep h.not_sep

/-- A separator behind a number, and more such text behind it. -/
lemma Number.chained_sep (h : Number n) (hm : Chained m) (c : Char) : Chained (n ++ c :: m) := by
  have hn := h.chained
  unfold Chained at hn ⊢
  rw [← List.cons_append, List.isChain_append]
  refine ⟨hn, hm.after c, fun x hx _ _ _ => ?_⟩
  rw [List.getLast?_cons_of_ne_nil h.1] at hx
  exact h.2 x (List.mem_of_mem_getLast? hx)

lemma chained_list (h : ∀ n ∈ ns, Number n) : Chained ([','].intercalate ns) := by
  induction ns with
  | nil => exact chained_nil
  | cons n ns ih =>
    rw [List.forall_mem_cons] at h
    by_cases hne : ns = []
    · rw [hne, List.intercalate_singleton]
      exact h.1.chained
    · rw [List.intercalate_cons_of_ne_nil hne, List.append_assoc, List.singleton_append]
      exact h.1.chained_sep (ih h.2) ','

lemma Plain.chained (h : Plain f) : Chained f := by
  cases h with
  | any => exact chained_of_not_sep (List.forall_mem_singleton.mpr rfl)
  | number h => exact h.chained
  | range hn hm => exact hn.chained_sep hm.chained '-'
  | step hn hm => exact hn.chained_sep hm.chained '/'
  | list _ h => exact chained_list h

lemma Piece.chained (h : Piece f) : Chained f := by
  rcases h with h | ⟨f, h, rfl⟩
  · exact h.chained
  · exact h.chained.append (chained_of_not_sep (List.forall_mem_singleton.mpr rfl))

/-! ### How many pieces there can be -/

lemma Number.seps_eq (h : Number n) : seps n = 0 := by
  rw [seps, List.countP_eq_zero]
  intro c hc
  rw [h.not_sep c hc]
  exact Bool.false_ne_true

lemma Number.cells_eq (h : Number n) : cells n = n.length := by
  rw [cells, List.countP_eq_length]
  intro c hc
  simp [isCell, h.2 c hc]

lemma Number.length_pos (h : Number n) : 0 < n.length := List.length_pos_iff.mpr h.1

lemma seps_comma : seps [','] = 1 := rfl

lemma cells_comma : cells [','] = 0 := rfl

lemma seps_lt_cells_list (hne : ns ≠ []) (h : ∀ n ∈ ns, Number n) :
    seps ([','].intercalate ns) < cells ([','].intercalate ns) := by
  induction ns with
  | nil => exact absurd rfl hne
  | cons n ns ih =>
    rw [List.forall_mem_cons] at h
    have hpos := h.1.length_pos
    by_cases hnil : ns = []
    · rw [hnil, List.intercalate_singleton, h.1.seps_eq, h.1.cells_eq]
      exact hpos
    · have hlt := ih hnil h.2
      rw [List.intercalate_cons_of_ne_nil hnil]
      simp only [seps_append, cells_append, h.1.seps_eq, h.1.cells_eq, seps_comma, cells_comma]
      omega

/-- A field has more cells than separators. -/
lemma Plain.seps_lt (h : Plain f) : seps f < cells f := by
  cases h with
  | any => decide
  | number h =>
    rw [h.seps_eq, h.cells_eq]
    exact h.length_pos
  | range hn hm =>
    have h1 := hn.length_pos
    have h2 := hm.length_pos
    have hsep : seps ['-'] = 1 ∧ cells ['-'] = 0 := by decide
    rw [← List.singleton_append]
    simp only [seps_append, cells_append, hn.seps_eq, hn.cells_eq, hm.seps_eq, hm.cells_eq, hsep]
    omega
  | step hn hm =>
    have h1 := hn.length_pos
    have h2 := hm.length_pos
    have hsep : seps ['/'] = 1 ∧ cells ['/'] = 0 := by decide
    rw [← List.singleton_append]
    simp only [seps_append, cells_append, hn.seps_eq, hn.cells_eq, hm.seps_eq, hm.cells_eq, hsep]
    omega
  | list hlen h => exact seps_lt_cells_list (by rintro rfl; simp at hlen) h

lemma Piece.seps_lt (h : Piece f) : seps f < cells f := by
  rcases h with h | ⟨f, h, rfl⟩
  · exact h.seps_lt
  · have hblank : seps [' '] = 0 ∧ cells [' '] = 0 := by decide
    have hlt := h.seps_lt
    simp only [seps_append, cells_append, hblank]
    omega

/-- There are no more pieces than cells without a separator. -/
lemma length_add_seps_le {ps : List (List Char)} (h : ∀ x ∈ ps, Piece x) :
    ps.length + seps ps.flatten ≤ cells ps.flatten := by
  induction ps with
  | nil => exact le_rfl
  | cons x ps ih =>
    rw [List.forall_mem_cons] at h
    have hx := h.1.seps_lt
    have hps := ih h.2
    simp only [List.flatten_cons, seps_append, cells_append, List.length_cons]
    omega

/-- The text splits into fields, as many as there are cells without a separator. -/
def Cut (s : List Char) : Prop :=
  ∃ ps : List (List Char), (∀ x ∈ ps, Plain x) ∧ s = ps.flatten ∧ ps.length + seps s = cells s

/-- The same with blanks behind the fields. -/
def CutUp (s : List Char) : Prop :=
  ∃ ps : List (List Char), (∀ x ∈ ps, Piece x) ∧ s = ps.flatten ∧ ps.length + seps s = cells s

lemma Cut.append (hn : Cut n) (hm : Cut m) : Cut (n ++ m) := by
  obtain ⟨ps, hps, rfl, hpslen⟩ := hn
  obtain ⟨qs, hqs, rfl, hqslen⟩ := hm
  refine ⟨ps ++ qs, List.forall_mem_append.mpr ⟨hps, hqs⟩, List.flatten_append.symm, ?_⟩
  simp only [seps_append, cells_append, List.length_append]
  omega

lemma CutUp.append (hn : CutUp n) (hm : CutUp m) : CutUp (n ++ m) := by
  obtain ⟨ps, hps, rfl, hpslen⟩ := hn
  obtain ⟨qs, hqs, rfl, hqslen⟩ := hm
  refine ⟨ps ++ qs, List.forall_mem_append.mpr ⟨hps, hqs⟩, List.flatten_append.symm, ?_⟩
  simp only [seps_append, cells_append, List.length_append]
  omega

/-- A field that is one cell longer than its separators is not split. -/
lemma Plain.cut (h : Plain f) (hlen : 1 + seps f = cells f) : Cut f :=
  ⟨[f], List.forall_mem_singleton.mpr h, List.flatten_singleton.symm, hlen⟩

lemma number_digit {c : Char} (h : c.isDigit = true) : Number [c] :=
  ⟨List.cons_ne_nil _ _, List.forall_mem_singleton.mpr h⟩

lemma cut_digits (h : ∀ c ∈ n, c.isDigit = true) : Cut n := by
  induction n with
  | nil => exact ⟨[], List.forall_mem_nil _, rfl, rfl⟩
  | cons c n ih =>
    rw [List.forall_mem_cons] at h
    have hc := number_digit h.1
    have hcut : Cut [c] := (Plain.number hc).cut (by rw [hc.seps_eq, hc.cells_eq]; rfl)
    exact hcut.append (ih h.2)

lemma Number.split_first (h : Number n) :
    ∃ c n', n = c :: n' ∧ c.isDigit = true ∧ ∀ c ∈ n', c.isDigit = true := by
  obtain ⟨hne, hdigit⟩ := h
  cases n with
  | nil => exact absurd rfl hne
  | cons c n =>
    rw [List.forall_mem_cons] at hdigit
    exact ⟨c, n, rfl, hdigit.1, hdigit.2⟩

lemma Number.split_last (h : Number n) :
    ∃ n' d, n = n' ++ [d] ∧ d.isDigit = true ∧ ∀ c ∈ n', c.isDigit = true := by
  obtain ⟨hne, hdigit⟩ := h
  have heq := List.dropLast_append_getLast hne
  refine ⟨_, _, heq.symm, hdigit _ (List.getLast_mem hne), fun c hc => hdigit c ?_⟩
  exact List.mem_of_mem_dropLast hc

/-- Two numbers with a separator between them: the separator keeps one digit on each side. -/
lemma cut_sep {c : Char} (hc : isSep c = true)
    (hplain : ∀ {n m : List Char}, Number n → Number m → Plain (n ++ c :: m))
    (hn : Number n) (hm : Number m) : Cut (n ++ c :: m) := by
  obtain ⟨n', d, rfl, hd, hn'⟩ := hn.split_last
  obtain ⟨k, m', rfl, hk, hm'⟩ := hm.split_first
  have hmiddle : Cut ([d] ++ c :: [k]) := by
    refine (hplain (number_digit hd) (number_digit hk)).cut ?_
    simp only [List.singleton_append, seps_cons, cells_cons, seps_nil, cells_nil, hc,
      isCell_of_isSep hc, isSep_of_isDigit hd, isSep_of_isDigit hk, isCell_of_isDigit hd,
      isCell_of_isDigit hk]
    rfl
  have heq : n' ++ [d] ++ c :: k :: m' = n' ++ (([d] ++ c :: [k]) ++ m') := by simp
  rw [heq]
  exact (cut_digits hn').append (hmiddle.append (cut_digits hm'))

/-- Digits with commas between them. -/
def digitList (ds : List Char) : List Char := [','].intercalate (ds.map fun d => [d])

lemma digitList_cons {d : Char} {ds : List Char} (hne : ds ≠ []) :
    digitList (d :: ds) = [d] ++ [','] ++ digitList ds := by
  rw [digitList, digitList, List.map_cons, List.intercalate_cons_of_ne_nil]
  rwa [Ne, List.map_eq_nil_iff]

lemma cut_digitList {ds : List Char} (hne : ds ≠ []) (h : ∀ d ∈ ds, d.isDigit = true) :
    Cut (digitList ds) := by
  have hnumbers : ∀ x ∈ ds.map fun d => [d], Number x := by
    intro x hx
    obtain ⟨d, hd, rfl⟩ := List.mem_map.mp hx
    exact number_digit (h d hd)
  have hcount : 1 + seps (digitList ds) = cells (digitList ds) := by
    clear hnumbers
    induction ds with
    | nil => exact absurd rfl hne
    | cons d ds ih =>
      rw [List.forall_mem_cons] at h
      have hd := number_digit h.1
      by_cases hnil : ds = []
      · rw [hnil, digitList, List.map_singleton, List.intercalate_singleton, hd.seps_eq, hd.cells_eq]
        rfl
      · have hrest := ih hnil h.2
        rw [digitList_cons hnil]
        simp only [seps_append, cells_append, hd.seps_eq, hd.cells_eq, seps_comma, cells_comma,
          List.length_singleton]
        omega
  refine Plain.cut ?_ hcount
  cases ds with
  | nil => exact absurd rfl hne
  | cons d ds =>
    cases ds with
    | nil => exact Plain.number (number_digit (h d List.mem_cons_self))
    | cons d' ds => exact Plain.list (by simp) hnumbers

/-- A list of numbers begins with a list of digits, which takes one more digit in front. -/
lemma list_begins (hne : ns ≠ []) (h : ∀ n ∈ ns, Number n) :
    ∃ ds rest : List Char, ds ≠ [] ∧ (∀ d ∈ ds, d.isDigit = true) ∧ Cut rest ∧
      [','].intercalate ns = digitList ds ++ rest := by
  induction ns with
  | nil => exact absurd rfl hne
  | cons n ns ih =>
    rw [List.forall_mem_cons] at h
    obtain ⟨c, n', hcons, hc, hn'⟩ := h.1.split_first
    by_cases hnil : ns = []
    · rw [hnil, List.intercalate_singleton, hcons]
      exact ⟨[c], n', List.cons_ne_nil _ _, List.forall_mem_singleton.mpr hc, cut_digits hn', rfl⟩
    · obtain ⟨ds, rest, hds, hdigits, hrest, heq⟩ := ih hnil h.2
      rw [List.intercalate_cons_of_ne_nil hnil, heq]
      by_cases hone : n' = []
      · refine ⟨c :: ds, rest, List.cons_ne_nil _ _, List.forall_mem_cons.mpr ⟨hc, hdigits⟩, hrest, ?_⟩
        rw [digitList_cons hds, hcons, hone]
        simp
      · -- the last digit of the number takes the comma; those between it and the first stand alone
        obtain ⟨n'', d, rfl, hd, hn''⟩ := Number.split_last ⟨hone, hn'⟩
        have hlist := cut_digitList (List.cons_ne_nil d ds) (List.forall_mem_cons.mpr ⟨hd, hdigits⟩)
        refine ⟨[c], n'' ++ (digitList (d :: ds) ++ rest), List.cons_ne_nil _ _,
          List.forall_mem_singleton.mpr hc, (cut_digits hn'').append (hlist.append hrest), ?_⟩
        rw [digitList_cons hds, hcons]
        simp [digitList]

lemma Plain.cuts (h : Plain f) : Cut f := by
  cases h with
  | any => exact Plain.any.cut rfl
  | number h => exact cut_digits h.2
  | range hn hm => exact cut_sep rfl Plain.range hn hm
  | step hn hm => exact cut_sep rfl Plain.step hn hm
  | @list ns hlen h =>
    have hne : ns ≠ [] := List.ne_nil_of_length_pos (by omega)
    obtain ⟨ds, rest, hds, hdigits, hrest, heq⟩ := list_begins hne h
    rw [heq]
    exact (cut_digitList hds hdigits).append hrest

/-- A blank behind the text goes to its last field. -/
lemma Cut.blank (h : Cut f) (hne : f ≠ []) : CutUp (f ++ [' ']) := by
  obtain ⟨ps, hps, rfl, hlen⟩ := h
  have hpsne : ps ≠ [] := by
    rintro rfl
    exact hne rfl
  have heq := List.dropLast_append_getLast hpsne
  rw [← heq] at hps hlen ⊢
  rw [List.forall_mem_append, List.forall_mem_singleton] at hps
  refine ⟨ps.dropLast ++ [ps.getLast hpsne ++ [' ']], ?_, by simp, ?_⟩
  · exact List.forall_mem_append.mpr
      ⟨fun x hx => .inl (hps.1 x hx), List.forall_mem_singleton.mpr (.inr ⟨_, hps.2, rfl⟩)⟩
  · rw [seps_append, cells_append, show seps [' '] = 0 from rfl, show cells [' '] = 0 from rfl]
    simpa using hlen

lemma Cut.up (h : Cut f) : CutUp f := by
  obtain ⟨ps, hps, heq, hlen⟩ := h
  exact ⟨ps, fun x hx => .inl (hps x hx), heq, hlen⟩

lemma Plain.ne_nil (h : Plain f) : f ≠ [] := by
  rintro rfl
  have hlt := h.seps_lt
  rw [seps_nil, cells_nil] at hlt
  exact lt_irrefl _ hlt

lemma joined_cons {fs : List (List Char)} (hne : fs ≠ []) (blank : Bool) :
    joined (f :: fs) blank = (f ++ [' ']) ++ joined fs blank := by
  rw [joined, joined, List.intercalate_cons_of_ne_nil hne, List.append_assoc]

/-- **Plain fields split** into as many pieces as they have cells without a separator. -/
lemma joined_cutUp {fs : List (List Char)} (hne : fs ≠ []) (h : ∀ f ∈ fs, Plain f) (blank : Bool) :
    CutUp (joined fs blank) := by
  induction fs with
  | nil => exact absurd rfl hne
  | cons f fs ih =>
    rw [List.forall_mem_cons] at h
    by_cases hnil : fs = []
    · rw [hnil, joined, List.intercalate_singleton]
      cases blank with
      | true => exact h.1.cuts.blank h.1.ne_nil
      | false =>
        have hup := h.1.cuts.up
        rwa [← List.append_nil f] at hup
    · rw [joined_cons hnil]
      exact (h.1.cuts.blank h.1.ne_nil).append (ih hnil h.2)

lemma CutUp.chained (h : CutUp f) : Chained f := by
  obtain ⟨ps, hps, rfl, -⟩ := h
  exact chained_flatten fun x hx => (hps x hx).chained

/-- The last five of the pieces are enough. -/
lemma CutUp.endsInFields (h : CutUp f) (hcells : seps f + 5 ≤ cells f) (before : List Char) :
    EndsInFields (before ++ f) := by
  obtain ⟨ps, hps, rfl, hlen⟩ := h
  refine ⟨ps.drop (ps.length - 5), ?_, ?_, fun x hx => hps x (List.mem_of_mem_drop hx), ?_⟩
  · rw [List.length_drop]
    omega
  · rw [List.length_drop]
    omega
  · refine ⟨before ++ (ps.take (ps.length - 5)).flatten, ?_⟩
    rw [List.append_assoc, ← List.flatten_append, List.take_append_drop]

/-- A text of plain fields has a cell more than separators for each of them. -/
lemma length_add_seps_le_joined {fs : List (List Char)} (h : ∀ f ∈ fs, Plain f) (blank : Bool) :
    fs.length + seps (joined fs blank) ≤ cells (joined fs blank) := by
  induction fs with
  | nil => cases blank <;> decide
  | cons f fs ih =>
    rw [List.forall_mem_cons] at h
    have hlt := h.1.seps_lt
    by_cases hnil : fs = []
    · rw [hnil, joined, List.intercalate_singleton, seps_append, cells_append, List.length_singleton]
      cases blank with
      | true =>
        rw [if_pos rfl, show seps [' '] = 0 from rfl, show cells [' '] = 0 from rfl]
        omega
      | false =>
        rw [if_neg Bool.false_ne_true, seps_nil, cells_nil]
        omega
    · have hle := ih h.2
      rw [joined_cons hnil, seps_append, seps_append, cells_append, cells_append,
        show seps [' '] = 0 from rfl, show cells [' '] = 0 from rfl, List.length_cons]
      omega

/-! ### Behind the last step -/

/-- No piece reaches over a step `*/`. -/
lemma Chained.suffix_of_step {before rest x : List Char} (h : Chained x)
    (hx : x <:+ before ++ '*' :: '/' :: rest) : x <:+ rest := by
  obtain ⟨y, hy⟩ := hx
  have hassoc : before ++ '*' :: '/' :: rest = (before ++ ['*']) ++ '/' :: rest := by simp
  rw [hassoc, List.append_eq_append_iff] at hy
  rcases hy with ⟨a, ha, hx⟩ | ⟨a, -, ha⟩
  · -- the piece would hold the `/`, with the `*` or nothing before it
    exfalso
    unfold Chained at h
    rw [hx, ← List.cons_append, List.isChain_append] at h
    have hlast : ∀ c ∈ (' ' :: a).getLast?, c.isDigit = true := fun c hc => h.2.2 c hc '/' rfl rfl
    rcases List.eq_nil_or_concat a with rfl | ⟨a', c, rfl⟩
    · have hblank := hlast ' ' rfl
      revert hblank
      decide
    · have hc : c = '*' := by
        rw [List.concat_eq_append, ← List.append_assoc] at ha
        exact (List.singleton_inj.mp (List.append_inj_right' ha rfl)).symm
      have hstar : ('*' : Char).isDigit = true := by
        rw [hc, List.concat_eq_append, ← List.cons_append, List.getLast?_concat] at hlast
        exact hlast '*' rfl
      revert hstar
      decide
  · cases a with
    | nil =>
      exfalso
      rw [List.nil_append] at ha
      unfold Chained at h
      rw [← ha, List.isChain_cons_cons] at h
      have hblank : (' ' : Char).isDigit = true := h.1 rfl
      revert hblank
      decide
    | cons c a =>
      exact ⟨a, (List.cons.inj ha).2.symm⟩

lemma endsInFields_step {before rest : List Char} (h : CutUp rest) :
    EndsInFields (before ++ '*' :: '/' :: rest) ↔ seps rest + 5 ≤ cells rest := by
  constructor
  · rintro ⟨ps, h5, -, hps, hsuffix⟩
    have hchained := chained_flatten fun x hx => (hps x hx).chained
    obtain ⟨y, rfl⟩ := hchained.suffix_of_step hsuffix
    have hy := h.chained.left.seps_le
    have hcount := length_add_seps_le hps
    rw [seps_append, cells_append]
    omega
  · intro hcells
    have hends := h.endsInFields hcells (before ++ ['*', '/'])
    simpa using hends

/-! ### The characters of a schedule -/

/-- A digit, a `*`, a separator or a blank. -/
def isFieldChar (c : Char) : Bool := isCell c || isSep c || c == ' '

lemma Number.fieldChars (h : Number n) : ∀ c ∈ n, isFieldChar c = true := by
  intro c hc
  rw [isFieldChar, isCell_of_isDigit (h.2 c hc)]
  rfl

lemma forall_mem_intercalate {P : Char → Prop} {sep : List Char} {fs : List (List Char)}
    (hsep : ∀ c ∈ sep, P c) (h : ∀ f ∈ fs, ∀ c ∈ f, P c) : ∀ c ∈ sep.intercalate fs, P c := by
  induction fs with
  | nil => exact List.forall_mem_nil _
  | cons f fs ih =>
    rw [List.forall_mem_cons] at h
    by_cases hnil : fs = []
    · rw [hnil, List.intercalate_singleton]
      exact h.1
    · rw [List.intercalate_cons_of_ne_nil hnil, List.append_assoc]
      exact List.forall_mem_append.mpr ⟨h.1, List.forall_mem_append.mpr ⟨hsep, ih h.2⟩⟩

lemma fieldChars_sep {c : Char} (hc : isFieldChar c = true) (hn : Number n) (hm : Number m) :
    ∀ x ∈ n ++ c :: m, isFieldChar x = true :=
  List.forall_mem_append.mpr ⟨hn.fieldChars, List.forall_mem_cons.mpr ⟨hc, hm.fieldChars⟩⟩

lemma Plain.fieldChars (h : Plain f) : ∀ c ∈ f, isFieldChar c = true := by
  cases h with
  | any => exact List.forall_mem_singleton.mpr rfl
  | number h => exact h.fieldChars
  | range hn hm => exact fieldChars_sep rfl hn hm
  | step hn hm => exact fieldChars_sep rfl hn hm
  | list _ h => exact forall_mem_intercalate (List.forall_mem_singleton.mpr rfl) fun n hn => (h n hn).fieldChars

lemma Field.fieldChars (h : Field f) : ∀ c ∈ f, isFieldChar c = true := by
  cases h with
  | plain h => exact h.fieldChars
  | anyStep hm => exact List.forall_mem_cons.mpr ⟨rfl, List.forall_mem_cons.mpr ⟨rfl, hm.fieldChars⟩⟩

lemma Piece.fieldChars (h : Piece f) : ∀ c ∈ f, isFieldChar c = true := by
  rcases h with h | ⟨f, h, rfl⟩
  · exact h.fieldChars
  · exact List.forall_mem_append.mpr ⟨h.fieldChars, List.forall_mem_singleton.mpr rfl⟩

lemma Fields.fieldChars {fs : List (List Char)} (h : Fields fs) (blank : Bool) :
    ∀ c ∈ joined fs blank, isFieldChar c = true := by
  refine List.forall_mem_append.mpr ⟨?_, ?_⟩
  · exact forall_mem_intercalate (List.forall_mem_singleton.mpr rfl) fun f hf => (h.field f hf).fieldChars
  · cases blank with
    | true => exact List.forall_mem_singleton.mpr rfl
    | false => exact List.forall_mem_nil _

/-! ### Schedules of fields -/

/-- Either the pattern knows all the fields, or there is a last step `*/m`. -/
lemma last_step {fs : List (List Char)} (h : ∀ f ∈ fs, Field f) :
    (∀ f ∈ fs, Plain f) ∨ ∃ pre m gs, fs = pre ++ ('*' :: '/' :: m) :: gs ∧ Number m ∧ ∀ g ∈ gs, Plain g := by
  induction fs with
  | nil => exact .inl (List.forall_mem_nil _)
  | cons f fs ih =>
    rw [List.forall_mem_cons] at h
    rcases ih h.2 with hplain | ⟨pre, m, gs, rfl, hm, hgs⟩
    · rcases h.1 with hf | hm
      · exact .inl (List.forall_mem_cons.mpr ⟨hf, hplain⟩)
      · exact .inr ⟨[], _, fs, rfl, hm, hplain⟩
    · exact .inr ⟨f :: pre, m, gs, rfl, hm, hgs⟩

lemma joined_append (pre : List (List Char)) {gs : List (List Char)} (hne : gs ≠ []) (blank : Bool) :
    ∃ before, joined (pre ++ gs) blank = before ++ joined gs blank := by
  induction pre with
  | nil => exact ⟨[], rfl⟩
  | cons f pre ih =>
    obtain ⟨before, heq⟩ := ih
    refine ⟨f ++ [' '] ++ before, ?_⟩
    rw [List.cons_append, joined_cons (List.append_ne_nil_of_right_ne_nil pre hne), heq, List.append_assoc _ before]

lemma joined_step (gs : List (List Char)) (blank : Bool) :
    joined (('*' :: '/' :: m) :: gs) blank = '*' :: '/' :: joined (m :: gs) blank := by
  by_cases hnil : gs = []
  · rw [hnil]
    rfl
  · rw [joined_cons hnil, joined_cons hnil]
    rfl

end

/-- A schedule of fields whose last step `*/m` has too little behind it: with the fields after it,
`m` has fewer than five cells more than separators. -/
def Overlooked (s : List Char) : Prop :=
  ∃ pre m gs blank, Fields (pre ++ ('*' :: '/' :: m) :: gs) ∧ Number m ∧ (∀ g ∈ gs, Plain g) ∧
    s = joined (pre ++ ('*' :: '/' :: m) :: gs) blank ∧
    cells (joined (m :: gs) blank) < seps (joined (m :: gs) blank) + 5

lemma endsInFields_joined_step {pre gs : List (List Char)} {m : List Char} (hm : Number m)
    (hgs : ∀ g ∈ gs, Plain g) (blank : Bool) :
    EndsInFields (joined (pre ++ ('*' :: '/' :: m) :: gs) blank) ↔
      seps (joined (m :: gs) blank) + 5 ≤ cells (joined (m :: gs) blank) := by
  obtain ⟨before, heq⟩ := joined_append pre (List.cons_ne_nil ('*' :: '/' :: m) gs) blank
  rw [heq, joined_step]
  refine endsInFields_step (joined_cutUp (List.cons_ne_nil m gs) ?_ blank)
  exact List.forall_mem_cons.mpr ⟨Plain.number hm, hgs⟩

/-- The pattern overlooks no other schedule of fields. -/
lemma endsInFields_iff {fs : List (List Char)} (h : Fields fs) (blank : Bool) :
    EndsInFields (joined fs blank) ↔ ¬ Overlooked (joined fs blank) := by
  constructor
  · rintro hends ⟨pre, m, gs, blank', -, hm, hgs, heq, hfew⟩
    rw [heq, endsInFields_joined_step hm hgs] at hends
    omega
  · intro hover
    rcases last_step h.field with hplain | ⟨pre, m, gs, rfl, hm, hgs⟩
    · have hne : fs ≠ [] := List.ne_nil_of_length_pos (by linarith [h.five])
      have hcells := length_add_seps_le_joined hplain blank
      exact (joined_cutUp hne hplain blank).endsInFields (by linarith [h.five]) []
    · rw [endsInFields_joined_step hm hgs]
      by_contra hfew
      exact hover ⟨pre, m, gs, blank, h, hm, hgs, rfl, not_le.mp hfew⟩

/-! ### Foreign text -/

/-- The pattern finds a schedule in the text, and the text is more than that: a macro with text
behind it, an interval with text around it, or fields that it ends in without being a schedule of
fields. -/
inductive Surrounded (s : List Char) : Prop
  | named {name : String} {x : List Char} (h : name ∈ names) (hne : x ≠ [])
      (heq : s = '@' :: name.toList ++ x)
  | every (h : HasInterval s) (hall : s ∉ intervals)
  | fields (h : EndsInFields s) (hall : ∀ fs blank, Fields fs → s ≠ joined fs blank)

lemma not_prefix_of_names : ∀ n ∈ names, ∀ n' ∈ names, n.toList <+: n'.toList → n = n' := by
  decide

lemma head_of_names : ∀ n ∈ names, n.toList.head? ≠ some 'e' := by
  decide

lemma blank_of_names : ∀ n ∈ names, n.toList.contains ' ' = false := by
  decide

/-- The text ends in a letter that is not one of a field. -/
def EndsForeign (s : List Char) : Prop := ∃ c ∈ s.getLast?, isFieldChar c = false

lemma last_of_names : ∀ n ∈ names, n.toList.getLast?.all isFieldChar = false := by
  decide

lemma last_of_units : ∀ u ∈ units, u.toList.getLast?.all isFieldChar = false := by
  decide

lemma endsForeign_append {x : List Char} (h : x.getLast?.all isFieldChar = false) (s : List Char) :
    EndsForeign (s ++ x) := by
  cases hlast : x.getLast? with
  | none =>
    rw [hlast] at h
    cases h
  | some c =>
    rw [hlast, Option.all_some] at h
    exact ⟨c, by rw [List.getLast?_append, hlast]; rfl, h⟩

lemma EndsInFields.not_endsForeign {s : List Char} (h : EndsInFields s) : ¬ EndsForeign s := by
  obtain ⟨ps, h5, -, hps, y, rfl⟩ := h
  rintro ⟨c, hc, hforeign⟩
  have hne : ps.flatten ≠ [] := by
    intro hnil
    have hcount := length_add_seps_le hps
    rw [hnil, cells_nil, seps_nil] at hcount
    omega
  rw [List.getLast?_append_of_ne_nil _ hne] at hc
  obtain ⟨x, hx, hcx⟩ := List.mem_flatten.mp (List.mem_of_mem_getLast? hc)
  rw [(hps x hx).fieldChars c hcx] at hforeign
  cases hforeign

lemma endsForeign_interval {s : List Char} (h : s ∈ intervals) : EndsForeign s := by
  obtain ⟨ps, hne, hps, rfl⟩ := h
  have heq := List.dropLast_append_getLast hne
  obtain ⟨n, u, -, hu, hpair⟩ := hps _ (List.getLast_mem hne)
  rw [← heq, List.flatten_append, List.flatten_singleton, hpair, ← List.append_assoc,
    ← List.append_assoc]
  exact endsForeign_append (last_of_units u hu) _

lemma not_at_of_fields {fs : List (List Char)} (h : Fields fs) (blank : Bool) : '@' ∉ joined fs blank := by
  intro hat
  have hchar := h.fieldChars blank '@' hat
  revert hchar
  decide

lemma HasInterval.mem {s : List Char} (h : HasInterval s) {c : Char} (hc : c ∈ "@every ".toList) : c ∈ s := by
  obtain ⟨ps, -, -, hinfix⟩ := h
  exact hinfix.subset (List.mem_append_left _ hc)

/-- What surrounds a schedule is not one. -/
lemma Surrounded.not_schedule {s : List Char} (h : Surrounded s) : ¬ Schedule s := by
  intro hs
  cases hs with
  | @named name hname =>
    cases h with
    | @named name' x hname' hne heq =>
      rw [List.cons_append, List.cons_inj_right] at heq
      have hsame := not_prefix_of_names name' hname' name hname ⟨x, heq.symm⟩
      rw [hsame] at heq
      exact hne (List.self_eq_append_right.mp heq)
    | every h =>
      have hblank := h.mem (c := ' ') (by decide)
      rcases List.mem_cons.mp hblank with hat | hmem
      · cases hat
      · have hnot := blank_of_names name hname
        rw [← Bool.not_eq_true, List.contains_iff_mem] at hnot
        exact hnot hmem
    | fields h =>
      exact h.not_endsForeign (endsForeign_append (last_of_names name hname) ['@'])
  | @every pairs hne hpairs =>
    cases h with
    | @named name' x hname' _ heq =>
      rw [show "@every ".toList = '@' :: 'e' :: "very ".toList from rfl, List.cons_append,
        List.cons_append, List.cons_append, List.cons_inj_right] at heq
      have hhead := head_of_names name' hname'
      cases hchars : name'.toList with
      | nil =>
        have hforeign := last_of_names name' hname'
        rw [hchars] at hforeign
        cases hforeign
      | cons c cs =>
        rw [hchars, List.cons_append] at heq
        rw [hchars, ← (List.cons.inj heq).1] at hhead
        exact hhead rfl
    | every _ hall => exact hall ⟨pairs, hne, hpairs, rfl⟩
    | fields h => exact h.not_endsForeign (endsForeign_interval ⟨pairs, hne, hpairs, rfl⟩)
  | @fields fs hfs blank =>
    cases h with
    | named _ _ heq =>
      refine not_at_of_fields hfs blank ?_
      rw [heq]
      exact List.mem_cons_self
    | every h => exact not_at_of_fields hfs blank (h.mem (by decide))
    | fields _ hall => exact hall fs blank hfs rfl

/-- The pattern finds the schedules that it does not overlook. -/
lemma search_of_schedule {s : List Char} (h : Schedule s) :
    Search patSchedule s ↔ ¬ Overlooked s := by
  rw [search_patSchedule]
  cases h with
  | @named name hname =>
    refine iff_of_true (.inl ⟨name, hname, List.prefix_rfl⟩) ?_
    rintro ⟨pre, m, gs, blank, hfs, -, -, heq, -⟩
    refine not_at_of_fields hfs blank ?_
    rw [← heq]
    exact List.mem_cons_self
  | @every pairs hne hpairs =>
    refine iff_of_true (.inr (.inl ⟨pairs, hne, hpairs, List.infix_rfl⟩)) ?_
    rintro ⟨pre, m, gs, blank, hfs, -, -, heq, -⟩
    refine not_at_of_fields hfs blank ?_
    rw [← heq]
    exact List.mem_cons_self
  | @fields fs hfs blank =>
    rw [← endsInFields_iff hfs blank]
    constructor
    · rintro (⟨name, -, hname⟩ | hinterval | hends)
      · exact absurd (hname.subset List.mem_cons_self) (not_at_of_fields hfs blank)
      · exact absurd (hinterval.mem (by decide)) (not_at_of_fields hfs blank)
      · exact hends
    · exact fun hends => .inr (.inr hends)

/-- A text that is no schedule is found if a schedule is in it. -/
lemma search_of_not_schedule {s : List Char} (h : ¬ Schedule s) :
    Search patSchedule s ↔ Surrounded s := by
  rw [search_patSchedule]
  constructor
  · rintro (⟨name, hname, x, rfl⟩ | hinterval | hends)
    · refine .named hname ?_ rfl
      rintro rfl
      rw [List.append_nil] at h
      exact h (.named hname)
    · refine .every hinterval ?_
      rintro ⟨pairs, hne, hpairs, rfl⟩
      exact h (.every hne hpairs)
    · refine .fields hends ?_
      rintro fs blank hfs rfl
      exact h (.fields hfs blank)
  · intro hs
    cases hs with
    | named hname _ heq => exact .inl ⟨_, hname, _, heq.symm⟩
    | every hinterval _ => exact .inr (.inl hinterval)
    | fields hends _ => exact .inr (.inr hends)

/-! ### The check of the webhook -/

lemma length_toList_le (s : String) : s.toList.length ≤ s.utf8ByteSize := by
  have hofList : ∀ l : List Char, l.length ≤ (String.ofList l).utf8ByteSize := by
    intro l
    induction l with
    | nil => exact Nat.zero_le _
    | cons c l ih =>
      rw [String.ofList_cons, String.utf8ByteSize_append, String.utf8ByteSize_singleton, List.length_cons]
      have hpos := Char.utf8Size_pos c
      omega
  have h := hofList s.toList
  rwa [String.ofList_toList] at h

/-- The webhook refuses nothing that the pattern finds. -/
lemma scheduleValidate_of_search {s : String} (h : Search patSchedule s.toList) : scheduleValidate s = [] := by
  refine if_pos ?_
  rcases search_patSchedule.mp h with ⟨name, -, x, hx⟩ | hinterval | ⟨ps, h5, -, hps, hsuffix⟩
  · right; left
    rw [← hx]
    rfl
  · right; right
    obtain ⟨ps, -, -, hinfix⟩ := hinterval
    have hlen := hinfix.length_le
    rw [List.length_append] at hlen
    have hevery : "@every ".toList.length = 7 := rfl
    have hbytes := length_toList_le s
    omega
  · right; right
    have hcount := length_add_seps_le hps
    have hcells : cells ps.flatten ≤ ps.flatten.length := List.countP_le_length
    have hlen := hsuffix.length_le
    have hbytes := length_toList_le s
    omega

/-- **Which texts are judged rightly**: all but the schedules with a step that the pattern
overlooks, and those with foreign text around a schedule. -/
theorem accepted_schedules_iff (s : String) :
    (Accepted s ↔ Schedule s.toList) ↔ ¬ Overlooked s.toList ∧ ¬ Surrounded s.toList := by
  have hsearch : Accepted s ↔ Search patSchedule s.toList :=
    ⟨fun h => h.1, fun h => ⟨h, scheduleValidate_of_search h⟩⟩
  rw [hsearch]
  by_cases hs : Schedule s.toList
  · have hnot : ¬ Surrounded s.toList := fun h => h.not_schedule hs
    rw [search_of_schedule hs]
    tauto
  · have hnot : ¬ Overlooked s.toList := by
      rintro ⟨pre, m, gs, blank, hfs, -, -, heq, -⟩
      exact hs (heq ▸ .fields hfs blank)
    rw [search_of_not_schedule hs]
    tauto

/-- The schedule of the README is one, and it is refused; a macro with text behind it is taken. -/
theorem not_accepted_schedules :
    (Schedule "0 */6 * * *".toList ∧ ¬ Accepted "0 */6 * * *") ∧
      (¬ Schedule "@dailyX".toList ∧ Accepted "@dailyX") := by
  have hnumber : ∀ c : Char, c.isDigit = true → Number [c] := fun c hc => number_digit hc
  have hfields : Fields ([['0']] ++ ['*', '/', '6'] :: [['*'], ['*'], ['*']]) := by
    refine ⟨by decide, by decide, ?_⟩
    simp only [List.singleton_append, List.forall_mem_cons]
    exact ⟨.plain (.number (hnumber '0' rfl)), .anyStep (hnumber '6' rfl), .plain .any, .plain .any,
      .plain .any, List.forall_mem_nil _⟩
  have hover : Overlooked "0 */6 * * *".toList := by
    refine ⟨_, ['6'], _, false, hfields, hnumber '6' rfl, ?_, rfl, by decide⟩
    simp only [List.forall_mem_cons]
    exact ⟨.any, .any, .any, List.forall_mem_nil _⟩
  have hschedule : Schedule "0 */6 * * *".toList := .fields hfields false
  have hsurrounded : Surrounded "@dailyX".toList :=
    @Surrounded.named _ "daily" ['X'] (by decide) (List.cons_ne_nil _ _) rfl
  have hsearch := (search_of_not_schedule hsurrounded.not_schedule).mpr hsurrounded
  refine ⟨⟨hschedule, fun h => ?_⟩, hsurrounded.not_schedule, hsearch, scheduleValidate_of_search hsearch⟩
  exact (search_of_schedule hschedule).mp h.1 hover

end KaitoAutoIndexer.Schedules
