import KaitoAutoIndexer.Kusto
import KaitoAutoIndexer.Lib.Regex

/-!
The host that gets the access token of a Kusto query: the URL made of the first `cluster('…')`
of the query. The prefix and the suffix of the name are looked at, never its host.
-/

namespace KaitoAutoIndexer.KustoHosts

open KaitoAutoIndexer.Lib KaitoAutoIndexer.Text
open KaitoAutoIndexer.Lib.Regex (Matches Search Denotes)
open KaitoAutoIndexer.Lib.Separated (cut cut_append cut_subset)

/-! ### The query's calls -/

def isQuote (c : Char) : Bool := c == '\'' || c == '"'

/-- `opening['"]([inner]+)['"]\)` -/
def patCall (opening : List Char) (inner : Char → Bool) : Regex Char :=
  .seqs [.lit opening, .char isQuote, .plus (.char inner), .char isQuote, .lit [')']]

/-- The group of the pattern where it matches at the start; no `inner` is a quote, so the group is
the longest run. -/
def captureAt (opening : List Char) (inner : Char → Bool) (s : List Char) : Option (List Char) :=
  if opening <+: s then
    match s.drop opening.length with
    | [] => none
    | q :: rest =>
      match rest.dropWhile inner with
      | q' :: ')' :: _ =>
        let name := rest.takeWhile inner
        if isQuote q ∧ isQuote q' ∧ name ≠ [] then some name else none
      | _ => none
  else none

/-- The group of the leftmost match, as `re.search` finds it. -/
def firstCapture (opening : List Char) (inner : Char → Bool) (s : List Char) : Option (List Char) :=
  s.tails.findSome? (captureAt opening inner)

def clusterOpening : List Char := "cluster(".toList

/-- `[^'"()]` -/
def isClusterChar (c : Char) : Bool := !(isQuote c || c == '(' || c == ')')

def databaseOpening : List Char := ".database(".toList

/-- `[^'"]` -/
def isDatabaseChar (c : Char) : Bool := !isQuote c

/-! ### The URL -/

/-- `s.replace(pat, "")` -/
def removed (pat s : List Char) : List Char := (cut pat s).flatten

def http : List Char := "http".toList

def httpsScheme : List Char := "https://".toList

def httpScheme : List Char := "http://".toList

def kustoSuffix : List Char := ".kusto.windows.net".toList

/-- The cluster's name without schemes. -/
def clusterName (url : List Char) : List Char := removed httpScheme (removed httpsScheme url)

/-- The URL made of the stripped group. -/
def clusterUrl (name : List Char) : List Char :=
  let url := if http <+: name then name else httpsScheme ++ name
  if kustoSuffix <:+ url then url else httpsScheme ++ clusterName url ++ kustoSuffix

/-- What `_execute_kusto_query` connects with. -/
structure Connection where
  clusterUrl : List Char
  accessToken : String
  database : List Char

/-- `_execute_kusto_query` up to the query's execution; `credentials` gives the token, if there
are any. -/
def executeKustoQuery (query : String) (credentials : Option (Option String)) :
    Except String Connection := do
  let some group := firstCapture clusterOpening isClusterChar query.toList
    | .error "Query must include at least one cluster('...') specification"
  let url := clusterUrl (strip group)
  let some token := credentials
    | .error "Credentials are required for Kusto authentication"
  if token.getD "" = "" then .error "Failed to retrieve access token for Kusto authentication"
  else
    let database := firstCapture databaseOpening isDatabaseChar query.toList
    return ⟨url, token.getD "", database.getD "NetDefaultDB".toList⟩

example : clusterUrl "help".toList = "https://help.kusto.windows.net".toList := by decide

/-! ### Hosts -/

def isHostEnd (c : Char) : Bool := c == '/' || c == '?' || c == '#'

/-- What stands before the first `/`, `?` or `#`. -/
def host (s : List Char) : List Char := s.takeWhile fun c => !isHostEnd c

/-- The URL goes to a Kusto host, over TLS. -/
def OverTls (url : List Char) : Prop := ∃ rest, url = httpsScheme ++ rest ∧ kustoSuffix <:+ host rest

/-- A name that is made into such a URL. -/
def Safe (name : List Char) : Prop :=
  if kustoSuffix <:+ name then
    if http <+: name then OverTls name else kustoSuffix <:+ host name
  else kustoSuffix <:+ host (clusterName name) ∨ ∀ c ∈ clusterName name, isHostEnd c = false

/-! ### What the search finds -/

/-- A call `opening'name')` stands at the beginning of the text. -/
def CallAt (opening : List Char) (inner : Char → Bool) (name s : List Char) : Prop :=
  name ≠ [] ∧ (∀ c ∈ name, inner c = true) ∧
    ∃ q q' rest, isQuote q = true ∧ isQuote q' = true ∧ s = opening ++ q :: (name ++ q' :: ')' :: rest)

/-- The first call in the text is one with this name. -/
inductive FirstCall (opening : List Char) (inner : Char → Bool) (name : List Char) : List Char → Prop
  | here {s : List Char} (h : CallAt opening inner name s) : FirstCall opening inner name s
  | later {c : Char} {s : List Char} (hnot : ∀ other, ¬ CallAt opening inner other (c :: s))
      (h : FirstCall opening inner name s) : FirstCall opening inner name (c :: s)

section

variable {opening : List Char} {inner : Char → Bool} {name s : List Char}

lemma takeWhile_run (h : ∀ c ∈ name, inner c = true) {q : Char} (hq : inner q = false)
    (rest : List Char) : (name ++ q :: rest).takeWhile inner = name := by
  rw [List.takeWhile_append_of_pos h, List.takeWhile_cons_of_neg (by simp [hq]), List.append_nil]

lemma dropWhile_run (h : ∀ c ∈ name, inner c = true) {q : Char} (hq : inner q = false)
    (rest : List Char) : (name ++ q :: rest).dropWhile inner = q :: rest := by
  rw [List.dropWhile_append_of_pos h, List.dropWhile_cons_of_neg (by simp [hq])]

/-- The longest run is the only group. -/
lemma captureAt_eq_some (hinner : ∀ c, isQuote c = true → inner c = false) :
    captureAt opening inner s = some name ↔ CallAt opening inner name s := by
  constructor
  · intro h
    unfold captureAt at h
    split at h
    · next hopening =>
      split at h
      · cases h
      · next q rest hdrop =>
        split at h
        · next q' tail htail =>
          dsimp only at h
          split_ifs at h with hquotes
          obtain rfl := Option.some.inj h
          refine ⟨hquotes.2.2, fun c hc => List.mem_takeWhile_imp hc, q, q', tail, hquotes.1,
            hquotes.2.1, ?_⟩
          rw [← htail, List.takeWhile_append_dropWhile, ← hdrop]
          exact (List.prefix_append_drop hopening)
        · cases h
    · cases h
  · rintro ⟨hne, hchars, q, q', rest, hq, hq', rfl⟩
    rw [captureAt, if_pos (List.prefix_append _ _), List.drop_left]
    simp only [dropWhile_run hchars (hinner q' hq'), takeWhile_run hchars (hinner q' hq')]
    rw [if_pos ⟨hq, hq', hne⟩]

lemma firstCapture_eq_some (hinner : ∀ c, isQuote c = true → inner c = false) :
    firstCapture opening inner s = some name ↔ FirstCall opening inner name s := by
  have hnone : ∀ t, captureAt opening inner t = none ↔ ∀ other, ¬ CallAt opening inner other t := by
    intro t
    rw [Option.eq_none_iff_forall_ne_some]
    exact forall_congr' fun other => not_congr (captureAt_eq_some hinner)
  unfold firstCapture
  induction s with
  | nil =>
    rw [show ([] : List Char).tails = [[]] from rfl, List.findSome?_singleton,
      captureAt_eq_some hinner]
    exact ⟨.here, fun h => by cases h with | here h => exact h⟩
  | cons c s ih =>
    rw [List.tails_cons, List.findSome?_cons]
    cases hat : captureAt opening inner (c :: s) with
    | some found =>
      have hfound := (captureAt_eq_some hinner).mp hat
      constructor
      · intro h
        obtain rfl := Option.some.inj h
        exact .here hfound
      · intro h
        cases h with
        | here h => rw [← (captureAt_eq_some hinner).mpr h, hat]
        | later hnot _ => exact absurd hfound (hnot found)
    | none =>
      have hnot := (hnone _).mp hat
      refine ih.trans ⟨.later hnot, fun h => ?_⟩
      cases h with
      | here h => exact absurd h (hnot name)
      | later _ h => exact h

lemma matches_patCall {b e : Bool} {m : List Char} :
    Matches (patCall opening inner) b m e ↔ ∃ q name q', isQuote q = true ∧ isQuote q' = true ∧
      name ≠ [] ∧ (∀ c ∈ name, inner c = true) ∧ m = opening ++ q :: (name ++ q' :: [')']) := by
  simp only [patCall, Regex.seqs, Regex.matches_seq, Regex.matches_char, Regex.matches_plus_char,
    Regex.matches_eps, Denotes.lit _ _ _ _]
  constructor
  · rintro ⟨_, _, rfl, rfl, _, _, rfl, ⟨q, hq, rfl⟩, name, _, rfl, ⟨hne, hname⟩, _, _, rfl,
      ⟨q', hq', rfl⟩, _, _, rfl, rfl, rfl⟩
    exact ⟨q, name, q', hq, hq', hne, hname, rfl⟩
  · rintro ⟨q, name, q', hq, hq', hne, hname, rfl⟩
    exact ⟨opening, _, rfl, rfl, [q], _, rfl, ⟨q, hq, rfl⟩, name, _, rfl, ⟨hne, hname⟩, [q'], [')'], rfl,
      ⟨q', hq', rfl⟩, [')'], [], rfl, rfl, rfl⟩

/-- A call anywhere makes one the first. -/
lemma firstCall_of_callAt {t : List Char} (h : CallAt opening inner name t) (hsuffix : t <:+ s) :
    ∃ first, FirstCall opening inner first s := by
  induction s with
  | nil =>
    obtain rfl := List.suffix_nil.mp hsuffix
    exact ⟨name, .here h⟩
  | cons c s ih =>
    by_cases hat : ∃ other, CallAt opening inner other (c :: s)
    · obtain ⟨other, hother⟩ := hat
      exact ⟨other, .here hother⟩
    · rcases List.suffix_cons_iff.mp hsuffix with rfl | hsuffix
      · exact absurd ⟨name, h⟩ hat
      · obtain ⟨first, hfirst⟩ := ih hsuffix
        exact ⟨first, .later (not_exists.mp hat) hfirst⟩

lemma FirstCall.callAt (h : FirstCall opening inner name s) : ∃ t, t <:+ s ∧ CallAt opening inner name t := by
  induction h with
  | @here s h => exact ⟨s, List.suffix_rfl, h⟩
  | @later c s _ _ ih =>
    obtain ⟨t, hsuffix, h⟩ := ih
    exact ⟨t, hsuffix.trans (List.suffix_cons c s), h⟩

/-- The search finds a call exactly where the pattern does. -/
theorem search_patCall : Search (patCall opening inner) s ↔ ∃ name, FirstCall opening inner name s := by
  constructor
  · rintro ⟨before, m, after, rfl, h⟩
    obtain ⟨q, name, q', hq, hq', hne, hname, rfl⟩ := matches_patCall.mp h
    have hcall : CallAt opening inner name ((opening ++ q :: (name ++ q' :: [')'])) ++ after) :=
      ⟨hne, hname, q, q', after, hq, hq', by simp⟩
    exact firstCall_of_callAt hcall (by simp)
  · rintro ⟨name, h⟩
    obtain ⟨_, ⟨before, rfl⟩, hne, hname, q, q', rest, hq, hq', rfl⟩ := h.callAt
    exact ⟨before, opening ++ q :: (name ++ q' :: [')']), rest, by simp,
      matches_patCall.mpr ⟨q, name, q', hq, hq', hne, hname, rfl⟩⟩

end

lemma not_isClusterChar_of_isQuote (c : Char) (h : isQuote c = true) : isClusterChar c = false := by
  simp [isClusterChar, h]

/-! ### The URL's two ends -/

variable {name url s : List Char}

lemma suffix_https_append : kustoSuffix <:+ httpsScheme ++ name ↔ kustoSuffix <:+ name := by
  refine ⟨fun h => ?_, fun h => h.trans (List.suffix_append _ _)⟩
  rcases List.suffix_or_suffix_of_suffix h (List.suffix_append httpsScheme name) with hname | ⟨t, ht⟩
  · exact hname
  · by_cases hnil : t = []
    · rw [← ht, hnil]
      exact List.suffix_rfl
    · -- the suffix would take the `/` at the end of the scheme with it
      obtain ⟨w, hw⟩ := h
      rw [← ht, ← List.append_assoc] at hw
      have hscheme := congrArg List.getLast? (List.append_cancel_right hw)
      rw [List.getLast?_append_of_ne_nil _ hnil] at hscheme
      have hslash : '/' ∈ kustoSuffix := by
        rw [← ht]
        exact List.mem_append_left _ (List.mem_of_getLast? hscheme)
      exact absurd hslash (by decide)

lemma removed_append {pat : List Char} (hne : pat ≠ []) : removed pat (pat ++ s) = removed pat s := by
  rw [removed, cut_append hne, List.flatten_cons, List.nil_append, removed]

lemma clusterName_https_append : clusterName (httpsScheme ++ s) = clusterName s := by
  rw [clusterName, removed_append (by decide), clusterName]

lemma clusterUrl_of_suffix (h : kustoSuffix <:+ name) :
    clusterUrl name = if http <+: name then name else httpsScheme ++ name := by
  unfold clusterUrl
  by_cases hhttp : http <+: name
  · rw [if_pos hhttp, if_pos h]
  · rw [if_neg hhttp, if_pos (suffix_https_append.mpr h)]

lemma clusterUrl_of_not_suffix (h : ¬ kustoSuffix <:+ name) :
    clusterUrl name = httpsScheme ++ (clusterName name ++ kustoSuffix) := by
  unfold clusterUrl
  rw [← List.append_assoc]
  by_cases hhttp : http <+: name
  · rw [if_pos hhttp, if_neg h]
  · rw [if_neg hhttp, if_neg (mt suffix_https_append.mp h), clusterName_https_append]

/-! ### Which names are safe -/

lemma overTls_https : OverTls (httpsScheme ++ s) ↔ kustoSuffix <:+ host s := by
  constructor
  · rintro ⟨rest, heq, h⟩
    rwa [List.append_cancel_left heq]
  · exact fun h => ⟨s, rfl, h⟩

lemma host_of_forall (h : ∀ c ∈ s, isHostEnd c = false) : host s = s := by
  rw [host, List.takeWhile_eq_self_iff]
  intro c hc
  rw [h c hc]
  rfl

lemma not_isHostEnd_of_suffix : ∀ c ∈ kustoSuffix, isHostEnd c = false := by
  have hall : (kustoSuffix.all fun c => !isHostEnd c) = true := rfl
  simpa using hall

/-- The suffix is the end of the host exactly if the name does not end the host. -/
lemma suffix_host_append :
    kustoSuffix <:+ host (s ++ kustoSuffix) ↔
      kustoSuffix <:+ host s ∨ ∀ c ∈ s, isHostEnd c = false := by
  by_cases hend : ∀ c ∈ s, isHostEnd c = false
  · have hall : ∀ c ∈ s ++ kustoSuffix, isHostEnd c = false :=
      List.forall_mem_append.mpr ⟨hend, not_isHostEnd_of_suffix⟩
    rw [host_of_forall hall]
    exact iff_of_true (List.suffix_append _ _) (.inr hend)
  · have hhost : host (s ++ kustoSuffix) = host s := by
      rw [host, List.takeWhile_append, if_neg]
      · rfl
      · intro hlen
        refine hend fun c hc => ?_
        have heq := (List.takeWhile_prefix _).eq_of_length hlen
        rw [← heq] at hc
        simpa using List.mem_takeWhile_imp hc
    rw [hhost, or_iff_left hend]

/-- **The names that are made into a Kusto host over TLS.** -/
theorem overTls_clusterUrl : OverTls (clusterUrl name) ↔ Safe name := by
  unfold Safe
  by_cases hsuffix : kustoSuffix <:+ name
  · rw [if_pos hsuffix, clusterUrl_of_suffix hsuffix]
    by_cases hhttp : http <+: name
    · rw [if_pos hhttp, if_pos hhttp]
    · rw [if_neg hhttp, if_neg hhttp, overTls_https]
  · rw [if_neg hsuffix, clusterUrl_of_not_suffix hsuffix, overTls_https, suffix_host_append]

/-! ### The URL as a name -/

lemma http_prefix_clusterUrl : http <+: clusterUrl name := by
  have hscheme : http <+: httpsScheme := ⟨"s://".toList, rfl⟩
  by_cases hsuffix : kustoSuffix <:+ name
  · rw [clusterUrl_of_suffix hsuffix]
    by_cases hhttp : http <+: name
    · rwa [if_pos hhttp]
    · rw [if_neg hhttp]
      exact hscheme.trans (List.prefix_append _ _)
  · rw [clusterUrl_of_not_suffix hsuffix]
    exact hscheme.trans (List.prefix_append _ _)

lemma kustoSuffix_suffix_clusterUrl : kustoSuffix <:+ clusterUrl name := by
  by_cases hsuffix : kustoSuffix <:+ name
  · rw [clusterUrl_of_suffix hsuffix]
    by_cases hhttp : http <+: name
    · rwa [if_pos hhttp]
    · rw [if_neg hhttp]
      exact suffix_https_append.mpr hsuffix
  · rw [clusterUrl_of_not_suffix hsuffix, ← List.append_assoc]
    exact List.suffix_append _ _

/-- A URL that has both ends is taken as it is. -/
lemma clusterUrl_of_ends (hhttp : http <+: url) (hsuffix : kustoSuffix <:+ url) : clusterUrl url = url := by
  rw [clusterUrl_of_suffix hsuffix, if_pos hhttp]

lemma strip_of_ends (hhttp : http <+: url) (hsuffix : kustoSuffix <:+ url) : strip url = url := by
  obtain ⟨rest, rfl⟩ := hhttp
  have hfirst : (http ++ rest).dropWhile isSpace = http ++ rest := List.dropWhile_cons_of_neg (by decide)
  rw [strip, hfirst]
  obtain ⟨before, heq⟩ := hsuffix
  have hlast : kustoSuffix = ".kusto.windows.ne".toList ++ ['t'] := rfl
  rw [← heq, hlast, ← List.append_assoc, List.rdropWhile_concat_neg _ _ _ (by decide)]

lemma removed_subset {pat : List Char} (hne : pat ≠ []) (s : List Char) : removed pat s ⊆ s := by
  intro c hc
  obtain ⟨x, hx, hcx⟩ := List.mem_flatten.mp hc
  exact cut_subset hne hx hcx

lemma strip_subset (s : List Char) : strip s ⊆ s :=
  List.Subset.trans (List.rdropWhile_prefix isSpace _).subset (List.dropWhile_subset _)

/-- No quote and no bracket gets into the URL. -/
lemma isClusterChar_clusterUrl (h : ∀ c ∈ name, isClusterChar c = true) :
    ∀ c ∈ clusterUrl name, isClusterChar c = true := by
  have hscheme : ∀ c ∈ httpsScheme, isClusterChar c = true := List.all_eq_true.mp rfl
  have hend : ∀ c ∈ kustoSuffix, isClusterChar c = true := List.all_eq_true.mp rfl
  by_cases hsuffix : kustoSuffix <:+ name
  · rw [clusterUrl_of_suffix hsuffix]
    by_cases hhttp : http <+: name
    · rwa [if_pos hhttp]
    · rw [if_neg hhttp]
      exact List.forall_mem_append.mpr ⟨hscheme, h⟩
  · rw [clusterUrl_of_not_suffix hsuffix]
    refine List.forall_mem_append.mpr ⟨hscheme, List.forall_mem_append.mpr ⟨?_, hend⟩⟩
    exact fun c hc => h c (removed_subset (by decide) _ (removed_subset (by decide) _ hc))

/-! ### The host of the token -/

/-- `cluster('url')` -/
def asCluster (url : List Char) : String := String.ofList ("cluster('".toList ++ (url ++ "')".toList))

variable {query : String} {credentials : Option (Option String)} {conn : Connection}

/-- A run connects if there is a cluster in the query, and a token. -/
lemma execute_eq_ok :
    executeKustoQuery query credentials = .ok conn ↔
      ∃ group token, FirstCall clusterOpening isClusterChar group query.toList ∧
        credentials = some token ∧ token.getD "" ≠ "" ∧
        conn = ⟨clusterUrl (strip group), token.getD "",
          (firstCapture databaseOpening isDatabaseChar query.toList).getD "NetDefaultDB".toList⟩ := by
  unfold executeKustoQuery
  simp only [← firstCapture_eq_some not_isClusterChar_of_isQuote]
  cases firstCapture clusterOpening isClusterChar query.toList with
  | none =>
    constructor
    · intro h
      cases h
    · rintro ⟨group, token, h, -⟩
      cases h
  | some group =>
    cases credentials with
    | none =>
      constructor
      · intro h
        cases h
      · rintro ⟨group, token, -, h, -⟩
        cases h
    | some token =>
      dsimp only
      by_cases htoken : token.getD "" = ""
      · rw [if_pos htoken]
        constructor
        · intro h
          cases h
        · rintro ⟨group, token', -, heq, hne, -⟩
          rw [← Option.some.inj heq] at hne
          exact absurd htoken hne
      · rw [if_neg htoken]
        constructor
        · intro h
          exact ⟨group, token, rfl, rfl, htoken, (Except.ok.inj h).symm⟩
        · rintro ⟨group', token', hgroup, heq, -, rfl⟩
          rw [← Option.some.inj hgroup, ← Option.some.inj heq]
          rfl

lemma FirstCall.chars {opening s : List Char} {inner : Char → Bool} (h : FirstCall opening inner name s) :
    name ≠ [] ∧ ∀ c ∈ name, inner c = true := by
  induction h with
  | here h => exact ⟨h.1, h.2.1⟩
  | later _ _ ih => exact ih

lemma toList_asCluster (url : List Char) :
    (asCluster url).toList = clusterOpening ++ '\'' :: (url ++ '\'' :: ')' :: []) := by
  have hopening : "cluster('".toList = clusterOpening ++ ['\''] := by decide
  have hclosing : "')".toList = ['\'', ')'] := by decide
  unfold asCluster
  rw [String.toList_ofList, hopening, hclosing, List.append_assoc, List.singleton_append]

lemma firstCall_asCluster (hne : url ≠ []) (h : ∀ c ∈ url, isClusterChar c = true) :
    FirstCall clusterOpening isClusterChar url (asCluster url).toList := by
  have hquote : isQuote '\'' = true := rfl
  exact .here ⟨hne, h, '\'', '\'', [], hquote, hquote, toList_asCluster url⟩

/-- The URL of a connection is the URL that is made of it. -/
lemma execute_asCluster (h : executeKustoQuery query credentials = .ok conn) :
    (executeKustoQuery (asCluster conn.clusterUrl) credentials).map Connection.clusterUrl =
      .ok conn.clusterUrl := by
  obtain ⟨group, token, hfirst, rfl, htoken, rfl⟩ := execute_eq_ok.mp h
  have hhttp : http <+: clusterUrl (strip group) := http_prefix_clusterUrl
  have hsuffix : kustoSuffix <:+ clusterUrl (strip group) := kustoSuffix_suffix_clusterUrl
  have hchars : ∀ c ∈ clusterUrl (strip group), isClusterChar c = true :=
    isClusterChar_clusterUrl fun c hc => hfirst.chars.2 c (strip_subset _ hc)
  have hne : clusterUrl (strip group) ≠ [] := by
    intro hnil
    rw [hnil] at hhttp
    exact absurd (List.prefix_nil.mp hhttp) (by decide)
  have hagain := execute_eq_ok.mpr ⟨_, token, firstCall_asCluster hne hchars, rfl, htoken, rfl⟩
  rw [hagain, Except.map, strip_of_ends hhttp hsuffix, clusterUrl_of_ends hhttp hsuffix]

/-- **Where the token goes**: to a Kusto host over TLS, exactly if the name in the first cluster of
the query is a safe one; the URL that it goes to is the URL made of itself. -/
theorem token_overTls_iff (h : executeKustoQuery query credentials = .ok conn) :
    (OverTls conn.clusterUrl ∧
        (executeKustoQuery (asCluster conn.clusterUrl) credentials).map Connection.clusterUrl =
          .ok conn.clusterUrl) ↔
      ∃ name, FirstCall clusterOpening isClusterChar name query.toList ∧ Safe (strip name) := by
  rw [and_iff_left (execute_asCluster h)]
  obtain ⟨group, token, hfirst, rfl, htoken, rfl⟩ := execute_eq_ok.mp h
  rw [overTls_clusterUrl]
  constructor
  · exact fun hsafe => ⟨group, hfirst, hsafe⟩
  · rintro ⟨name, hname, hsafe⟩
    have hsame := (firstCapture_eq_some not_isClusterChar_of_isQuote).mpr hname
    rw [(firstCapture_eq_some not_isClusterChar_of_isQuote).mpr hfirst] at hsame
    rwa [Option.some.inj hsame]

theorem token_overTls_help :
    executeKustoQuery "cluster('help').database('Samples')" (some (some "token")) =
        .ok ⟨"https://help.kusto.windows.net".toList, "token", "Samples".toList⟩ ∧
      OverTls "https://help.kusto.windows.net".toList := by
  have hexec : executeKustoQuery "cluster('help').database('Samples')" (some (some "token")) =
      .ok ⟨"https://help.kusto.windows.net".toList, "token", "Samples".toList⟩ := by rfl
  have hfirst : FirstCall clusterOpening isClusterChar "help".toList
      "cluster('help').database('Samples')".toList :=
    (firstCapture_eq_some not_isClusterChar_of_isQuote).mp rfl
  have hname : clusterName (strip "help".toList) = ['h', 'e', 'l', 'p'] := rfl
  have hsafe : Safe (strip "help".toList) := by
    rw [Safe, if_neg (by decide), hname]
    exact .inr (by simp [isHostEnd])
  exact ⟨hexec, ((token_overTls_iff hexec).mpr ⟨_, hfirst, hsafe⟩).1⟩

/-- A plain URL stays one. -/
theorem not_token_overTls :
    ¬ ∀ (query : String) (credentials : Option (Option String)) (conn : Connection),
      executeKustoQuery query credentials = .ok conn → OverTls conn.clusterUrl ∧
        (executeKustoQuery (asCluster conn.clusterUrl) credentials).map Connection.clusterUrl =
          .ok conn.clusterUrl := by
  intro h
  obtain ⟨⟨rest, heq, -⟩, -⟩ := h "cluster('http://help.kusto.windows.net')" (some (some "token"))
    ⟨"http://help.kusto.windows.net".toList, "token", "NetDefaultDB".toList⟩ rfl
  have hprefix : httpsScheme <+: "http://help.kusto.windows.net".toList := ⟨rest, heq.symm⟩
  exact absurd hprefix (by decide)

end KaitoAutoIndexer.KustoHosts
