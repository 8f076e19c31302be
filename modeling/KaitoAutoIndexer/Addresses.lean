import KaitoAutoIndexer.Job
import KaitoAutoIndexer.Controller
import KaitoAutoIndexer.Lib.Percent

/-!
The texts that the RAG engine client of the controller and that of the job send: URLs, and the
metadata filter. The model of the clients passes on what these texts name.
-/

namespace KaitoAutoIndexer.Addresses

open KaitoAutoIndexer.Lib KaitoAutoIndexer.Lib.Percent KaitoAutoIndexer.Types
open KaitoAutoIndexer.Rag KaitoAutoIndexer.Controller KaitoAutoIndexer.Job

/-! ### Names -/

/-- `[a-z0-9]` -/
def alphanumeric (c : Char) : Bool := c.isLower || c.isDigit

/-- A character of a namespace's name. -/
def labelChar (c : Char) : Bool := alphanumeric c || c == '-'

/-- A character of an object's name. -/
def nameChar (c : Char) : Bool := labelChar c || c == '.'

/-- Whether `validateCreate` lets an index name pass: the pattern
`^[a-z0-9]([a-z0-9\-]*[a-z0-9])?$`. -/
def patIndexName (indexName : String) : Bool :=
  match indexName.toList with
  | [] => false
  | c :: cs => alphanumeric c && cs.all labelChar && cs.getLast?.all alphanumeric

/-- Namespace, name and RAGEngine name are made of the characters that Kubernetes admits, and
the webhook accepts the index name. -/
structure Admitted (o : AutoIndexer) : Prop where
  namespace_ : ∀ c ∈ o.namespace_.toList, labelChar c = true
  name : ∀ c ∈ o.name.toList, nameChar c = true
  ragEngine : ∀ c ∈ o.spec.ragEngine.toList, nameChar c = true
  indexName : patIndexName o.spec.indexName = true

/-! ### Texts -/

/-- `url.QueryEscape`. -/
def queryEscape (s : String) : String := String.ofList (Percent.queryEscape s.toList)

/-- `url.Values.Encode`, sorted by key. -/
def encode (params : List (String × String)) : String :=
  "&".intercalate ((params.insertionSort fun p q => p.1 ≤ q.1).map fun p =>
    queryEscape p.1 ++ "=" ++ queryEscape p.2)

/-- The metadata filter of `getDocumentCountAttempt`. -/
def metadataFilter (autoindexerName ns : String) : String :=
  "\x7b\"autoindexer\": \"" ++ ns ++ "_" ++ autoindexerName ++ "\"\x7d"

/-- `requestURL` of `getDocumentCountAttempt`. -/
def documentCountURL (ragEngineEndpoint indexName autoindexerName ns : String) : String :=
  let baseURL := ragEngineEndpoint ++ "/indexes/" ++ queryEscape indexName ++ "/documents"
  baseURL ++ "?" ++ encode
    [("limit", "1"), ("offset", "0"), ("metadata_filter", metadataFilter autoindexerName ns)]

/-- `requestURL` of `deleteIndexAttempt`. -/
def deleteIndexURL (ragEngineEndpoint indexName : String) : String :=
  ragEngineEndpoint ++ "/indexes/" ++ indexName

/-- A UTF-16 code unit, escaped. -/
def unicodeEscape (n : ℕ) : List Char :=
  '\x5c' :: 'u' :: [n / 4096 % 16, n / 256 % 16, n / 16 % 16, n % 16].map Nat.digitChar

/-- A character in a string of `json.dumps`, which keeps printable ASCII. -/
def jsonChar (c : Char) : List Char :=
  if c = '\x22' ∨ c = '\x5c' then ['\x5c', c]
  else if ' ' ≤ c ∧ c ≤ '~' then [c]
  else
    match c with
    | '\n' => ['\x5c', 'n']
    | '\r' => ['\x5c', 'r']
    | '\t' => ['\x5c', 't']
    | '\x08' => ['\x5c', 'b']
    | '\x0c' => ['\x5c', 'f']
    | c =>
      if c.toNat < 0x10000 then unicodeEscape c.toNat
      else
        let n := c.toNat - 0x10000
        unicodeEscape (0xd800 + n / 1024) ++ unicodeEscape (0xdc00 + n % 1024)

def jsonString (s : String) : String := "\"" ++ String.ofList (s.toList.flatMap jsonChar) ++ "\""

/-- `json.dumps` of a metadata filter. -/
def jsonDumps (filter : Metadata) : String :=
  "\x7b" ++ ", ".intercalate (filter.map fun e => jsonString e.1 ++ ": " ++ jsonString e.2) ++ "\x7d"

/-! ### What the texts name -/

/-- The server and the index that `scheme://server/indexes/index/..` names, the index in bytes. -/
def addressed (url : String) : Option (List Char × List UInt8) :=
  match parts url.toList with
  | _ :: _ :: server :: collection :: index :: _ =>
    if collection = "indexes".toList then (unescape false index).map (server, ·) else none
  | _ => none

/-- The metadata filter in the query of a URL, in bytes. -/
def filterOf (url : String) : Option (List UInt8) :=
  ((pairs (queryOf url.toList)).lookup "metadata_filter".toList).bind (unescape true)

variable {o : AutoIndexer}

lemma unreserved_of_alphanumeric {c : Char} (h : alphanumeric c = true) : unreserved c = true := by
  have hc : c.isAlphanum = true := by
    unfold alphanumeric at h
    simp only [Bool.or_eq_true] at h
    unfold Char.isAlphanum Char.isAlpha
    rcases h with h | h <;> simp [h]
  unfold unreserved
  simp [hc]

lemma unreserved_of_labelChar {c : Char} (h : labelChar c = true) : unreserved c = true := by
  simp only [labelChar, Bool.or_eq_true, beq_iff_eq] at h
  rcases h with h | rfl
  · exact unreserved_of_alphanumeric h
  · rfl

lemma unreserved_of_nameChar {c : Char} (h : nameChar c = true) : unreserved c = true := by
  simp only [nameChar, Bool.or_eq_true, beq_iff_eq] at h
  rcases h with h | rfl
  · exact unreserved_of_labelChar h
  · rfl

lemma labelChar_of_patIndexName {s : String} (h : patIndexName s = true) :
    ∀ c ∈ s.toList, labelChar c = true := by
  unfold patIndexName at h
  intro c hc
  cases hs : s.toList with
  | nil =>
    rw [hs] at hc
    cases hc
  | cons d ds =>
    simp only [hs, Bool.and_eq_true, List.all_eq_true] at h hc
    obtain ⟨⟨hd, hds⟩, -⟩ := h
    rcases List.mem_cons.mp hc with rfl | hc
    · simp [labelChar, hd]
    · exact hds c hc

lemma queryEscape_of_plain {s : String} (h : ∀ c ∈ s.toList, unreserved c = true) :
    queryEscape s = s := by
  unfold queryEscape
  rw [queryEscape_of_unreserved h]
  exact String.ofList_toList

/-- An accepted index name stands for itself in a URL. -/
lemma queryEscape_indexName {s : String} (h : patIndexName s = true) : queryEscape s = s :=
  queryEscape_of_plain fun c hc => unreserved_of_labelChar (labelChar_of_patIndexName h c hc)

/-! ### The index -/

/-- The server that the endpoint of an AutoIndexer names. -/
def server (o : AutoIndexer) : List Char :=
  (o.spec.ragEngine ++ "." ++ o.namespace_ ++ ".svc.cluster.local:80").toList

lemma not_delimiter_server (h : Admitted o) : ∀ c ∈ server o, delimiter c = false := by
  have hfixed : ∀ c ∈ ".svc.cluster.local:80".toList, delimiter c = false := by simp [delimiter]
  have hns : ∀ c ∈ o.namespace_.toList, delimiter c = false := fun c hc =>
    not_delimiter_of_unreserved (unreserved_of_labelChar (h.namespace_ c hc))
  have hrag : ∀ c ∈ o.spec.ragEngine.toList, delimiter c = false := fun c hc =>
    not_delimiter_of_unreserved (unreserved_of_nameChar (h.ragEngine c hc))
  intro c hc
  unfold server at hc
  rw [String.toList_append, String.toList_append, String.toList_append] at hc
  rcases List.mem_append.mp hc with hc | hc
  · rcases List.mem_append.mp hc with hc | hc
    · rcases List.mem_append.mp hc with hc | hc
      · exact hrag c hc
      · rw [List.mem_singleton.mp hc]
        rfl
    · exact hns c hc
  · exact hfixed c hc

/-- Any URL below the path of the index names the index. -/
lemma addressed_of_eq (h : Admitted o) {url rest : String}
    (hurl : url = (target o).endpoint ++ "/indexes/" ++ o.spec.indexName ++ rest)
    (hrest : rest = "" ∨ ∃ t, rest.toList = '/' :: t) :
    addressed url = some (server o, utf8 o.spec.indexName.toList) := by
  have hindex : ∀ c ∈ o.spec.indexName.toList, unreserved c = true := fun c hc =>
    unreserved_of_labelChar (labelChar_of_patIndexName h.indexName c hc)
  have hfree : ∀ c ∈ o.spec.indexName.toList, delimiter c = false := fun c hc =>
    not_delimiter_of_unreserved (hindex c hc)
  have htext : url.toList = "http:".toList ++ '/' :: ([] ++ '/' :: (server o ++ '/' ::
      ("indexes".toList ++ '/' :: (o.spec.indexName.toList ++ rest.toList)))) := by
    rw [hurl]
    simp [target, server]
  have hlast : ∃ more, parts (o.spec.indexName.toList ++ rest.toList) =
      o.spec.indexName.toList :: more := by
    rcases hrest with rfl | ⟨t, ht⟩
    · exact ⟨[], parts_last hfree (.inl rfl)⟩
    · rw [ht]
      exact ⟨_, parts_append hfree⟩
  obtain ⟨more, hmore⟩ := hlast
  unfold addressed
  rw [htext, parts_append (by simp [delimiter]), parts_append (by simp),
    parts_append (not_delimiter_server h), parts_append (by simp [delimiter]), hmore]
  simp [unescape_of_unreserved hindex]

/-- **The escaped path of the count and the unescaped one of the deletion name one index.** -/
lemma addressed_documentCountURL (h : Admitted o) :
    addressed (documentCountURL (target o).endpoint o.spec.indexName o.name o.namespace_) =
      some (server o, utf8 o.spec.indexName.toList) := by
  have hurl : documentCountURL (target o).endpoint o.spec.indexName o.name o.namespace_ =
      (target o).endpoint ++ "/indexes/" ++ o.spec.indexName ++ ("/documents" ++ ("?" ++ encode
        [("limit", "1"), ("offset", "0"),
          ("metadata_filter", metadataFilter o.name o.namespace_)])) := by
    unfold documentCountURL
    rw [queryEscape_indexName h.indexName]
    simp only [String.append_assoc]
  exact addressed_of_eq h hurl (.inr ⟨_, by rw [String.toList_append]; rfl⟩)

lemma addressed_deleteIndexURL (h : Admitted o) :
    addressed (deleteIndexURL (target o).endpoint o.spec.indexName) =
      some (server o, utf8 o.spec.indexName.toList) := by
  have hurl : deleteIndexURL (target o).endpoint o.spec.indexName =
      (target o).endpoint ++ "/indexes/" ++ o.spec.indexName ++ "" := by simp [deleteIndexURL]
  exact addressed_of_eq h hurl (.inl rfl)

/-! ### The owner -/

lemma jsonChar_of_alphanumeric {c : Char} (h : alphanumeric c = true) : jsonChar c = [c] := by
  simp only [alphanumeric, Char.isLower, Char.isDigit, Bool.or_eq_true, Bool.and_eq_true,
    decide_eq_true_eq, UInt32.le_iff_toNat_le, ge_iff_le] at h
  have hval : c.val.toNat = c.toNat := rfl
  have hrange : 48 ≤ c.toNat ∧ c.toNat ≤ 122 ∧ c.toNat ≠ 92 := by
    have hlower : 'a'.val.toNat = 97 ∧ 'z'.val.toNat = 122 := ⟨rfl, rfl⟩
    have hdigit : '0'.val.toNat = 48 ∧ '9'.val.toNat = 57 := ⟨rfl, rfl⟩
    omega
  have hescaped : ¬ (c = '\x22' ∨ c = '\x5c') := by
    rintro (rfl | rfl)
    · exact absurd hrange.1 (by decide)
    · exact hrange.2.2 rfl
  have hprintable : ' ' ≤ c ∧ c ≤ '~' := by
    have hends : ' '.val.toNat = 32 ∧ '~'.val.toNat = 126 := ⟨rfl, rfl⟩
    simp only [Char.le_def, UInt32.le_iff_toNat_le]
    omega
  unfold jsonChar
  rw [if_neg hescaped, if_pos hprintable]

/-- The characters of a tag are printed as they are. -/
lemma jsonChar_of_mem_tag (h : Admitted o) : ∀ c ∈ o.tag.toList, jsonChar c = [c] := by
  have hname : ∀ c, nameChar c = true → jsonChar c = [c] := by
    intro c hc
    simp only [nameChar, labelChar, Bool.or_eq_true, beq_iff_eq] at hc
    rcases hc with (hc | rfl) | rfl
    · exact jsonChar_of_alphanumeric hc
    · decide
    · decide
  intro c hc
  unfold AutoIndexer.tag at hc
  simp only [String.toList_append, List.mem_append] at hc
  rcases hc with (hc | hc) | hc
  · exact hname c (by simp [nameChar, h.namespace_ c hc])
  · rw [List.mem_singleton.mp hc]
    decide
  · exact hname c (h.name c hc)

lemma jsonString_of_plain {s : String} (h : ∀ c ∈ s.toList, jsonChar c = [c]) :
    jsonString s = "\"" ++ s ++ "\"" := by
  have hkept : s.toList.flatMap jsonChar = s.toList := by
    rw [List.flatMap_congr h]
    exact List.flatMap_singleton' _
  unfold jsonString
  rw [hkept, String.ofList_toList]

/-- **Both clients print the filter for a tag alike.** -/
lemma metadataFilter_eq (h : Admitted o) :
    metadataFilter o.name o.namespace_ = jsonDumps [("autoindexer", o.tag)] := by
  have hkey : ∀ c ∈ "autoindexer".toList, jsonChar c = [c] := by simp [jsonChar]
  unfold jsonDumps metadataFilter
  rw [List.map_cons, List.map_nil, jsonString_of_plain hkey,
    jsonString_of_plain (jsonChar_of_mem_tag h), AutoIndexer.tag, ← String.toList_inj]
  simp only [String.intercalate_singleton, String.toList_append]
  simp

/-- The parameters of a query are read back, in the order they stand. -/
lemma pairs_params (params : List (String × String)) (key value : String) :
    pairs ("&".intercalate ((params ++ [(key, value)]).map fun p =>
      queryEscape p.1 ++ "=" ++ queryEscape p.2)).toList =
      (params ++ [(key, value)]).map fun p =>
        (Percent.queryEscape p.1.toList, Percent.queryEscape p.2.toList) := by
  have hfree : ∀ s : String, ∀ c ∈ Percent.queryEscape s.toList, c ≠ '&' ∧ c ≠ '=' := by
    intro s c hc
    have hd : delimiter c = false := not_delimiter_of_mem hc
    constructor <;> rintro rfl <;> exact absurd hd (by decide)
  have htext : ∀ key value : String, (queryEscape key ++ "=" ++ queryEscape value).toList =
      Percent.queryEscape key.toList ++ '=' :: Percent.queryEscape value.toList := by
    intro key value
    simp [queryEscape]
  have hwhole : ∀ key value : String, '&' ∉
      Percent.queryEscape key.toList ++ '=' :: Percent.queryEscape value.toList := by
    intro key value hc
    rcases List.mem_append.mp hc with hc | hc
    · exact (hfree key _ hc).1 rfl
    · rcases List.mem_cons.mp hc with hc | hc
      · exact absurd hc (by decide)
      · exact (hfree value _ hc).1 rfl
  have hpair : ∀ key value : String,
      pair (Percent.queryEscape key.toList ++ '=' :: Percent.queryEscape value.toList) =
        (Percent.queryEscape key.toList, Percent.queryEscape value.toList) :=
    fun key value => pair_append fun hc => (hfree key _ hc).2 rfl
  induction params with
  | nil =>
    rw [List.nil_append, List.map_singleton, String.intercalate_singleton, htext,
      pairs_last (hwhole key value), hpair]
    rfl
  | cons p params ih =>
    have hne : (params ++ [(key, value)]).map (fun p =>
        queryEscape p.1 ++ "=" ++ queryEscape p.2) ≠ [] := by simp
    obtain ⟨q, qs, hq⟩ := List.exists_cons_of_ne_nil hne
    have hstep : ("&".intercalate (((p :: params) ++ [(key, value)]).map fun p =>
        queryEscape p.1 ++ "=" ++ queryEscape p.2)).toList =
        (Percent.queryEscape p.1.toList ++ '=' :: Percent.queryEscape p.2.toList) ++ '&' ::
          ("&".intercalate ((params ++ [(key, value)]).map fun p =>
            queryEscape p.1 ++ "=" ++ queryEscape p.2)).toList := by
      rw [List.cons_append, List.map_cons, hq, String.intercalate_cons_cons, String.toList_append,
        String.toList_append, htext, List.append_assoc]
      rfl
    rw [hstep, pairs_append (hwhole p.1 p.2), ih, hpair]
    rfl

/-- The parameters of a count are sent sorted. -/
lemma encode_params (limit offset filter : String) :
    encode [("limit", limit), ("offset", offset), ("metadata_filter", filter)] =
      "&".intercalate (([("limit", limit), ("metadata_filter", filter)] ++ [("offset", offset)]).map
        fun p => queryEscape p.1 ++ "=" ++ queryEscape p.2) := by
  have hlm : ("limit" : String) ≤ "metadata_filter" := by decide
  have hom : ¬ ("offset" : String) ≤ "metadata_filter" := by decide
  have hlo : ("limit" : String) ≤ "offset" := by decide
  have hsorted : ([("limit", limit), ("offset", offset), ("metadata_filter", filter)] :
      List (String × String)).insertionSort (fun p q => p.1 ≤ q.1) =
      [("limit", limit), ("metadata_filter", filter)] ++ [("offset", offset)] := by
    simp only [List.insertionSort_cons, List.insertionSort_nil, List.orderedInsert_nil,
      List.orderedInsert_cons, hlm, hom, hlo, if_true, if_false, List.cons_append, List.nil_append]
  unfold encode
  rw [hsorted]

/-- **The count is filtered by the tag.** -/
lemma filterOf_documentCountURL (h : Admitted o) :
    filterOf (documentCountURL (target o).endpoint o.spec.indexName o.name o.namespace_) =
      some (utf8 (jsonDumps [("autoindexer", o.tag)]).toList) := by
  have hpath : '?' ∉ ((target o).endpoint ++ "/indexes/" ++ o.spec.indexName ++
      "/documents").toList := by
    have htext : ((target o).endpoint ++ "/indexes/" ++ o.spec.indexName ++ "/documents").toList =
        "http://".toList ++ server o ++ "/indexes/".toList ++ o.spec.indexName.toList ++
          "/documents".toList := by
      simp [target, server]
    rw [htext]
    simp only [List.mem_append, not_or]
    refine ⟨⟨⟨⟨by simp, fun hc => ?_⟩, by simp⟩, fun hc => ?_⟩, by simp⟩
    · exact absurd (not_delimiter_server h _ hc) (by decide)
    · exact absurd (labelChar_of_patIndexName h.indexName _ hc) (by decide)
  have hquery : ∀ s t : String, (s ++ "?" ++ t).toList = s.toList ++ '?' :: t.toList := by
    intro s t
    simp
  have hlimit : Percent.queryEscape "limit".toList = "limit".toList :=
    queryEscape_of_unreserved (by simp [unreserved])
  have hkey : Percent.queryEscape "metadata_filter".toList = "metadata_filter".toList :=
    queryEscape_of_unreserved (by simp [unreserved])
  have hother : ("metadata_filter".toList == "limit".toList) = false := by simp
  unfold documentCountURL
  rw [queryEscape_indexName h.indexName, encode_params, metadataFilter_eq h]
  unfold filterOf
  rw [hquery, queryOf_append hpath, pairs_params]
  simp only [List.map_append, List.map_cons, List.map_nil, List.cons_append, hlimit, hkey]
  rw [List.lookup_cons, hother]
  simp only [List.lookup_cons_self, Option.bind_some]
  exact unescape_queryEscape _

/-- **Different AutoIndexers have different tags.** -/
lemma eq_of_tag {o' : AutoIndexer} (h : Admitted o) (h' : Admitted o') (ht : o'.tag = o.tag) :
    o'.namespace_ = o.namespace_ ∧ o'.name = o.name := by
  have hfree : ∀ o : AutoIndexer, Admitted o → ∀ c ∈ o.namespace_.toList, c ≠ '_' := by
    rintro o h c hc rfl
    exact absurd (h.namespace_ _ hc) (by decide)
  have htag : ∀ o : AutoIndexer, o.tag.toList = o.namespace_.toList ++ '_' :: o.name.toList := by
    intro o
    simp [AutoIndexer.tag]
  have hns : ∀ o : AutoIndexer, Admitted o → o.tag.toList.takeWhile (· ≠ '_') = o.namespace_.toList := by
    intro o h
    rw [htag, List.takeWhile_append_of_pos fun c hc => by simpa using hfree o h c hc]
    simp
  have hname : ∀ o : AutoIndexer, Admitted o →
      (o.tag.toList.dropWhile (· ≠ '_')).drop 1 = o.name.toList := by
    intro o h
    rw [htag, List.dropWhile_append_of_pos fun c hc => by simpa using hfree o h c hc]
    simp
  constructor
  · apply String.toList_inj.mp
    rw [← hns o' h', ← hns o h, ht]
  · apply String.toList_inj.mp
    rw [← hname o' h', ← hname o h, ht]

end KaitoAutoIndexer.Addresses
