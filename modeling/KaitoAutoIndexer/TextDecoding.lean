import KaitoAutoIndexer.ContentHandlers

/-!
The text handler undoes the encodings: which encoding is read off a content type, and what the first
encoding in the list that decodes the bytes makes of them.
-/

namespace KaitoAutoIndexer.TextDecoding

open KaitoAutoIndexer.Lib.Separated (cut cutFrom_before cutFrom_until)
open KaitoAutoIndexer.Text KaitoAutoIndexer.ContentHandlers

/-! ### The declared encoding -/

variable {u v : List Char}

/-- No space at either end. -/
def Trimmed (u : List Char) : Prop :=
  (∃ c l, u = c :: l ∧ isSpace c = false) ∧ ∃ l c, u = l ++ [c] ∧ isSpace c = false

lemma strip_append_of_trimmed (hu : Trimmed u) (hspace : ∀ c ∈ v, isSpace c = true) : strip (u ++ v) = u := by
  obtain ⟨⟨c, l, hcons, hc⟩, ⟨m, d, hconcat, hd⟩⟩ := hu
  have hfirst : (u ++ v).dropWhile isSpace = u ++ v := by
    rw [hcons, List.cons_append, List.dropWhile_cons_of_neg (by rw [hc]; exact Bool.false_ne_true)]
  have hback : ∀ a ∈ v.reverse, isSpace a = true := fun a ha => hspace a (List.mem_reverse.mp ha)
  rw [strip, hfirst, List.rdropWhile, List.reverse_append, List.dropWhile_append_of_pos hback, hconcat,
    List.reverse_concat, List.dropWhile_cons_of_neg (by rw [hd]; exact Bool.false_ne_true),
    ← List.reverse_concat, List.reverse_reverse]

/-- The name of an encoding, as it stands in a content type. -/
def IsToken (name : String) : Prop :=
  name ≠ "" ∧ ∀ c ∈ name.toList, isSpace c = false ∧ c ≠ ';' ∧ c ≠ '=' ∧ c ≠ '"'

/-- The content type has the parameter `charset`, its value a token or a quoted string. -/
inductive Declares (name : String) : String → Prop
  | token {before space rest : String} (hbefore : contains before "charset=" = false)
      (hspace : ∀ c ∈ space.toList, isSpace c = true) (hrest : rest = "" ∨ rest.toList.head? = some ';') :
      Declares name (before ++ "charset=" ++ name ++ space ++ rest)
  | quoted {before space rest : String} (hbefore : contains before "charset=" = false)
      (hspace : ∀ c ∈ space.toList, isSpace c = true) (hrest : rest = "" ∨ rest.toList.head? = some ';') :
      Declares name (before ++ "charset=" ++ ("\"" ++ name ++ "\"") ++ space ++ rest)

lemma trimmed_token {name : String} (h : IsToken name) : Trimmed name.toList := by
  have hne : name.toList ≠ [] := fun hnil => h.1 (String.toList_eq_nil_iff.mp hnil)
  constructor
  · obtain ⟨c, l, hcons⟩ := List.exists_cons_of_ne_nil hne
    exact ⟨c, l, hcons, (h.2 c (by rw [hcons]; exact List.mem_cons_self)).1⟩
  · refine ⟨_, _, (List.dropLast_append_getLast hne).symm, (h.2 _ (List.getLast_mem hne)).1⟩

lemma trimmed_quoted (name : String) : Trimmed ("\"" ++ name ++ "\"").toList := by
  have hlist : ("\"" ++ name ++ "\"").toList = '"' :: (name.toList ++ ['"']) := by
    rw [String.toList_append, String.toList_append]
    rfl
  rw [hlist]
  exact ⟨⟨'"', _, rfl, by decide⟩, ⟨'"' :: name.toList, '"', rfl, by decide⟩⟩

/-- What stands between the first `charset=` and the next semicolon is read, without the spaces around
it. -/
lemma declaredCharset_append {before value space rest : String} (hbefore : contains before "charset=" = false)
    (htrimmed : Trimmed value.toList) (hvalue : ∀ c ∈ value.toList, c ≠ ';' ∧ c ≠ '=')
    (hspace : ∀ c ∈ space.toList, isSpace c = true) (hrest : rest = "" ∨ rest.toList.head? = some ';') :
    declaredCharset (before ++ "charset=" ++ value ++ space ++ rest) = some value := by
  have hlist : (before ++ "charset=" ++ value ++ space ++ rest).toList =
      before.toList ++ ("charset=".toList ++ ((value.toList ++ space.toList) ++ rest.toList)) := by
    simp only [String.toList_append, List.append_assoc]
  have hcontains : contains (before ++ "charset=" ++ value ++ space ++ rest) "charset=" = true := by
    refine decide_eq_true ?_
    rw [hlist]
    exact ⟨before.toList, _, (List.append_assoc _ _ _)⟩
  have hchars : ∀ c ∈ value.toList ++ space.toList, c ≠ ';' ∧ c ≠ '=' := by
    intro c hc
    rcases List.mem_append.mp hc with hin | hin
    · exact hvalue c hin
    · have hc := hspace c hin
      constructor
      · rintro rfl
        exact absurd hc (by decide)
      · rintro rfl
        exact absurd hc (by decide)
  have hpattern : "charset=".toList = 'c' :: "harset=".toList := rfl
  have hnot : ¬ 'c' :: "harset=".toList <:+: before.toList := of_decide_eq_false hbefore
  have hempty : rest.toList = [] ∨ rest.toList.head? = some ';' := hrest.imp_left fun h => by rw [h]; rfl
  have hequals : '=' ∈ "charset=".toList := by decide
  obtain ⟨w, pieces, hpieces, hw⟩ := cutFrom_until hequals (fun hin => (hchars '=' hin).2 rfl)
    (by decide) hempty []
  have hsplit : splitAround "charset=".toList (before ++ "charset=" ++ value ++ space ++ rest).toList =
      before :: String.ofList (value.toList ++ space.toList ++ w) :: pieces.map String.ofList := by
    rw [splitAround, cut, hlist, hpattern, cutFrom_before (by decide) hnot, ← hpattern, hpieces]
    simp
  have htake : (value.toList ++ space.toList ++ w).takeWhile (· ≠ ';') = value.toList ++ space.toList := by
    rw [List.takeWhile_append_of_pos fun c hc => decide_eq_true (hchars c hc).1]
    rcases hw with rfl | hhead
    · simp
    · cases w with
      | nil => simp
      | cons c w =>
        obtain rfl := Option.some.inj hhead
        simp
  have hne : value.toList ≠ [] := by
    obtain ⟨c, l, hcons, _⟩ := htrimmed.1
    rw [hcons]
    exact List.cons_ne_nil c l
  rw [declaredCharset, if_pos hcontains, hsplit]
  dsimp only
  rw [List.getD_cons_succ, List.getD_cons_zero, String.toList_ofList, htake, strip_append_of_trimmed htrimmed hspace, if_neg hne, String.ofList_toList]

lemma declaredCharset_of_declares {name contentType : String} (htoken : IsToken name)
    (h : Declares name contentType) :
    ∃ value, declaredCharset contentType = some value ∧ (value = name ∨ value = "\"" ++ name ++ "\"") := by
  have hname : ∀ c ∈ name.toList, c ≠ ';' ∧ c ≠ '=' := fun c hc =>
    ⟨(htoken.2 c hc).2.1, (htoken.2 c hc).2.2.1⟩
  cases h with
  | token hbefore hspace hrest =>
    exact ⟨name, declaredCharset_append hbefore (trimmed_token htoken) hname hspace hrest, .inl rfl⟩
  | quoted hbefore hspace hrest =>
    refine ⟨_, declaredCharset_append hbefore (trimmed_quoted name) ?_ hspace hrest, .inr rfl⟩
    intro c hc
    rw [String.toList_append, String.toList_append, List.mem_append, List.mem_append] at hc
    rcases hc with (hquote | hin) | hquote
    · obtain rfl := List.mem_singleton.mp hquote
      decide
    · exact hname c hin
    · obtain rfl := List.mem_singleton.mp hquote
      decide

/-! ### The encodings to try -/

variable {P : Packages} {R : Registry} {s t value contentType : String} {raw : ByteArray}

/-- Bytes that have a reading are read so, and from no bytes comes no text. -/
lemma textExtract_of_found
    (h : (encodingsToTry P raw contentType).findSome? (P.registry.decode · raw) = some t) :
    textExtract P raw contentType = .ok t := by
  unfold textExtract
  by_cases hsize : raw.size = 0
  · obtain rfl := ByteArray.size_eq_zero_iff.mp hsize
    obtain ⟨name, _, hname⟩ := List.exists_of_findSome?_eq_some h
    obtain ⟨codec, _, hcodec⟩ := Option.bind_eq_some_iff.mp hname
    rw [codec.decode_empty] at hcodec
    rw [if_pos hsize, Option.some.inj hcodec]
  · rw [if_neg hsize, h]

lemma common_subset (P : Packages) (raw : ByteArray) (contentType : String) :
    commonEncodings ⊆ encodingsToTry P raw contentType := by
  intro name hname
  have hin : name ∈ (declaredCharset contentType).toList ++ commonEncodings := List.mem_append_right _ hname
  unfold encodingsToTry
  dsimp only
  cases detectedEncoding P raw with
  | none => exact hin
  | some e =>
    dsimp only
    by_cases he : e ∈ (declaredCharset contentType).toList ++ commonEncodings
    · rw [if_pos he]
      exact hin
    · rw [if_neg he]
      refine (List.mem_insertIdx ?_).mpr (.inr hin)
      exact List.length_pos_of_mem hin

/-- Every byte string has a reading, in Latin-1 at the latest. -/
lemma exists_found (P : Packages) (raw : ByteArray) (contentType : String) :
    ∃ t, (encodingsToTry P raw contentType).findSome? (P.registry.decode · raw) = some t := by
  have hlatin : "latin1" ∈ encodingsToTry P raw contentType := common_subset P raw contentType (by decide)
  refine Option.isSome_iff_exists.mp (List.findSome?_isSome_iff.mpr ⟨"latin1", hlatin, ?_⟩)
  rw [Registry.decode, P.registry.latin1]
  rfl

lemma exists_textExtract (P : Packages) (raw : ByteArray) (contentType : String) :
    ∃ t, textExtract P raw contentType = .ok t := by
  obtain ⟨t, h⟩ := exists_found P raw contentType
  exact ⟨t, textExtract_of_found h⟩

lemma textExtract_ok_iff : textExtract P raw contentType = .ok s ↔
    (encodingsToTry P raw contentType).findSome? (P.registry.decode · raw) = some s := by
  constructor
  · intro h
    obtain ⟨t, hfound⟩ := exists_found P raw contentType
    rw [textExtract_of_found hfound] at h
    rw [hfound, Except.ok.inj h]
  · exact textExtract_of_found

/-- Without a declared encoding, UTF-8 is tried first. -/
lemma encodingsToTry_of_none (P : Packages) (raw : ByteArray) (h : declaredCharset contentType = none) :
    ∃ rest, encodingsToTry P raw contentType = "utf-8" :: rest := by
  rw [encodingsToTry, h, Option.toList_none, List.nil_append]
  cases detectedEncoding P raw with
  | none => exact ⟨_, rfl⟩
  | some e =>
    dsimp only
    by_cases he : e ∈ commonEncodings
    · rw [if_pos he]
      exact ⟨_, rfl⟩
    · rw [if_neg he]
      exact ⟨_, rfl⟩

/-- The encoding that the detector is sure of, where it is neither the declared one nor in the list. -/
def newEncoding (P : Packages) (raw : ByteArray) (value : String) : Option String :=
  (detectedEncoding P raw).filter (· ∉ value :: commonEncodings)

/-- A declared encoding is tried first, and then that of the detector, if it is a new one. -/
lemma encodingsToTry_of_some (h : declaredCharset contentType = some value) :
    encodingsToTry P raw contentType =
      value :: ((newEncoding P raw value).toList ++ commonEncodings) := by
  rw [encodingsToTry, h, Option.toList_some, List.singleton_append, newEncoding]
  cases detectedEncoding P raw with
  | none => rfl
  | some e =>
    dsimp only
    by_cases he : e ∈ value :: commonEncodings
    · rw [if_pos he, Option.filter_some, if_neg fun hnot => absurd he (of_decide_eq_true hnot)]
      rfl
    · rw [if_neg he, Option.filter_some, if_pos (decide_eq_true he)]
      rfl

lemma decode_utf8 (R : Registry) (raw : ByteArray) : R.decode "utf-8" raw = String.fromUTF8? raw := by
  rw [Registry.decode, R.utf8]
  rfl

/-! ### Encoded texts -/

/-- The bytes are an encoding of the text, of which the content type says nothing, or which it names;
a byte order mark may say it too. -/
inductive Encoded (R : Registry) (s : String) : ByteArray → String → Prop
  | plain {contentType : String} (hnone : contains contentType "charset=" = false) :
      Encoded R s s.toByteArray contentType
  | marked (contentType : String) : Encoded R s (bom ++ s.toByteArray) contentType
  | declared {name contentType : String} {codec : Codec} {raw : ByteArray} (htoken : IsToken name)
      (hdeclares : Declares name contentType) (hlookup : R.lookup name = some codec)
      (hencode : codec.encode s = some raw) : Encoded R s raw contentType

/-- Where the declared encoding fails, a new one of the detector is tried, then UTF-8, which keeps a
byte order mark, and then Latin-1, which never fails. -/
def FallsBack (P : Packages) (s : String) (raw : ByteArray) (value : String) : Prop :=
  (∃ e ∈ newEncoding P raw value, P.registry.decode e raw = some s) ∨
    (∀ e ∈ newEncoding P raw value, P.registry.decode e raw = none) ∧
      (String.fromUTF8? raw = some s ∨ String.fromUTF8? raw = none ∧ decodeLatin1 raw = s)

/-- The bytes are read as the text: no encoding is declared and they are its UTF-8, or the declared
encoding makes this text of them, or it fails on them and an encoding that is tried later does. -/
def ReadAs (P : Packages) (s : String) (raw : ByteArray) (contentType : String) : Prop :=
  (declaredCharset contentType = none ∧ raw = s.toByteArray) ∨
    ∃ value, declaredCharset contentType = some value ∧
      (P.registry.decode value raw = some s ∨
        P.registry.decode value raw = none ∧ FallsBack P s raw value)

lemma fromUTF8_marked (s : String) : String.fromUTF8? (bom ++ s.toByteArray) = some ("\uFEFF" ++ s) := by
  rw [bom, ← String.toByteArray_append]
  exact fromUTF8_toByteArray _

lemma marked_ne (s : String) : "\uFEFF" ++ s ≠ s := by
  intro h
  have hlength := congrArg (fun x : String => x.toList.length) h
  simp at hlength

lemma eq_of_fromUTF8 {t : String} (h : String.fromUTF8? raw = some t) : raw = t.toByteArray := by
  unfold String.fromUTF8? at h
  split at h
  · obtain rfl := Option.some.inj h
    rfl
  · cases h

lemma marked_ne_plain (s : String) : bom ++ s.toByteArray ≠ s.toByteArray := by
  intro h
  have hsize := congrArg ByteArray.size h
  have hmark : bom.size = 3 := rfl
  rw [ByteArray.size_append, hmark] at hsize
  omega

/-- Bytes that are no UTF-8 are none behind a byte order mark either. -/
lemma utf8Sig_decode_of_none (h : String.fromUTF8? raw = none) : utf8Sig.decode raw = none := by
  change String.fromUTF8? (if startsWith raw bom then raw.extract bom.size raw.size else raw) = none
  split
  · rename_i hmark
    have hstart : raw.extract 0 bom.size = bom := of_decide_eq_true hmark
    cases hrest : String.fromUTF8? (raw.extract bom.size raw.size) with
    | none => rfl
    | some t =>
      have hsize : bom.size ≤ raw.size := by
        have hlength := congrArg ByteArray.size hstart
        rw [ByteArray.size_extract] at hlength
        omega
      have hraw : raw = bom ++ t.toByteArray := by
        calc raw = raw.extract 0 raw.size := ByteArray.extract_zero_size.symm
          _ = raw.extract 0 bom.size ++ raw.extract bom.size raw.size :=
            ByteArray.extract_eq_extract_append_extract bom.size (Nat.zero_le _) hsize
          _ = bom ++ t.toByteArray := by rw [hstart, eq_of_fromUTF8 hrest]
      rw [hraw, fromUTF8_marked] at h
      cases h
  · exact h

/-- Of the encodings in the list, UTF-8 or Latin-1 is the first that reads the bytes. -/
lemma found_common_iff (R : Registry) (s : String) (raw : ByteArray) :
    commonEncodings.findSome? (R.decode · raw) = some s ↔
      String.fromUTF8? raw = some s ∨ String.fromUTF8? raw = none ∧ decodeLatin1 raw = s := by
  have hsig : R.decode "utf-8-sig" raw = utf8Sig.decode raw := by
    rw [Registry.decode, R.utf8Sig]
    rfl
  have hlatin : R.decode "latin1" raw = some (decodeLatin1 raw) := by
    rw [Registry.decode, R.latin1]
    rfl
  rw [commonEncodings, List.findSome?_cons, decode_utf8]
  cases hutf8 : String.fromUTF8? raw with
  | some t => simp
  | none =>
    rw [List.findSome?_cons, hsig, utf8Sig_decode_of_none hutf8, List.findSome?_cons, hlatin]
    simp

/-- Behind the declared encoding, only that of the detector comes before UTF-8. -/
lemma found_fallback_iff (P : Packages) (s value : String) (raw : ByteArray) :
    ((newEncoding P raw value).toList ++ commonEncodings).findSome? (P.registry.decode · raw) = some s ↔
      FallsBack P s raw value := by
  unfold FallsBack
  cases newEncoding P raw value with
  | none =>
    rw [Option.toList_none, List.nil_append, found_common_iff]
    simp
  | some e =>
    rw [Option.toList_some, List.singleton_append, List.findSome?_cons]
    cases hdecode : P.registry.decode e raw with
    | some t => simp [hdecode]
    | none => simp [hdecode, found_common_iff]

/-- Under a declared encoding, whatever the bytes are. -/
lemma textExtract_declared_iff (hvalue : declaredCharset contentType = some value) :
    textExtract P raw contentType = .ok s ↔ P.registry.decode value raw = some s ∨
      P.registry.decode value raw = none ∧ FallsBack P s raw value := by
  rw [textExtract_ok_iff, encodingsToTry_of_some hvalue, List.findSome?_cons]
  cases hdecode : P.registry.decode value raw with
  | some t => simp
  | none => simpa using found_fallback_iff P s value raw

lemma readAs_of_some (hvalue : declaredCharset contentType = some value) :
    ReadAs P s raw contentType ↔ P.registry.decode value raw = some s ∨
      P.registry.decode value raw = none ∧ FallsBack P s raw value := by
  simp [ReadAs, hvalue]

/-- Without one, UTF-8 comes before UTF-8 with a mark, and keeps the mark. -/
lemma textExtract_utf8 (P : Packages) (s : String) (hnone : declaredCharset contentType = none) :
    textExtract P s.toByteArray contentType = .ok s := by
  obtain ⟨rest, hrest⟩ := encodingsToTry_of_none P s.toByteArray hnone
  refine textExtract_of_found ?_
  rw [hrest, List.findSome?_cons, decode_utf8, fromUTF8_toByteArray]

lemma declaredCharset_of_not_contains (hnone : contains contentType "charset=" = false) :
    declaredCharset contentType = none := by
  rw [declaredCharset, if_neg (by rw [hnone]; exact Bool.false_ne_true)]

/-- The declared encoding is that of the codec, in quotes or not. -/
lemma decode_declared {name : String} {codec : Codec} (htoken : IsToken name)
    (hdeclares : Declares name contentType) (hlookup : R.lookup name = some codec) :
    ∃ value, declaredCharset contentType = some value ∧ R.decode value raw = codec.decode raw := by
  obtain ⟨value, hvalue, hname⟩ := declaredCharset_of_declares htoken hdeclares
  refine ⟨value, hvalue, ?_⟩
  have hcodec : R.lookup value = some codec := by
    rcases hname with rfl | rfl
    · exact hlookup
    · rw [R.quoted, hlookup]
  rw [Registry.decode, hcodec]
  rfl

/-- **When extraction undoes encoding**: exactly if the bytes are read as the text, as they are where
the codec that the content type names decodes them to it. Some text is extracted in any case. -/
theorem textExtract_encoded_iff (P : Packages) :
    (∀ (s : String) (raw : ByteArray) (contentType : String), Encoded P.registry s raw contentType →
      (textExtract P raw contentType = .ok s ↔ ReadAs P s raw contentType)) ∧
      (∀ (s : String) (raw : ByteArray) (name contentType : String) (codec : Codec), IsToken name →
        Declares name contentType → P.registry.lookup name = some codec →
          codec.decode raw = some s → textExtract P raw contentType = .ok s) ∧
        ∀ (raw : ByteArray) (contentType : String), ∃ t, textExtract P raw contentType = .ok t := by
  refine ⟨fun s raw contentType h => ?_, ?_, exists_textExtract P⟩
  swap
  · intro s raw name contentType codec htoken hdeclares hlookup hdecode
    obtain ⟨value, hvalue, hcodec⟩ := decode_declared htoken hdeclares hlookup
    exact (textExtract_declared_iff hvalue).mpr (.inl (hcodec.trans hdecode))
  cases h with
  | plain hnone =>
    have hdeclared := declaredCharset_of_not_contains hnone
    exact iff_of_true (textExtract_utf8 P s hdeclared) (.inl ⟨hdeclared, rfl⟩)
  | marked =>
    cases hvalue : declaredCharset contentType with
    | some value => rw [textExtract_declared_iff hvalue, readAs_of_some hvalue]
    | none =>
      have hkept : textExtract P (bom ++ s.toByteArray) contentType = .ok ("\uFEFF" ++ s) := by
        rw [bom, ← String.toByteArray_append]
        exact textExtract_utf8 P _ hvalue
      rw [hkept]
      refine iff_of_false (fun h => marked_ne s (Except.ok.inj h)) ?_
      rintro (⟨-, heq⟩ | ⟨value, hsome, -⟩)
      · exact marked_ne_plain s heq
      · rw [hvalue] at hsome
        cases hsome
  | declared htoken hdeclares hlookup hencode =>
    obtain ⟨value, hvalue, -⟩ := declaredCharset_of_declares htoken hdeclares
    rw [textExtract_declared_iff hvalue, readAs_of_some hvalue]

/-- A letter in Latin-1, under a content type that names it in quotes. -/
def accented : String := "text/html; charset=\"latin1\""

lemma encoded_accent : Encoded demoPackages.registry "é" ⟨#[233]⟩ accented := by
  have hdeclares : Declares "latin1" ("text/html; " ++ "charset=" ++ ("\"" ++ "latin1" ++ "\"") ++ "" ++ "") :=
    .quoted (by decide) (fun c hc => absurd hc List.not_mem_nil) (.inl rfl)
  exact .declared (by simp [IsToken, isSpace]) hdeclares rfl (by decide)

lemma readAs_accent : ReadAs demoPackages "é" ⟨#[233]⟩ accented :=
  .inr ⟨"\"latin1\"", by decide, .inl (by decide)⟩

theorem textExtract_encoded_accent : textExtract demoPackages ⟨#[233]⟩ accented = .ok "é" :=
  ((textExtract_encoded_iff demoPackages).1 "é" ⟨#[233]⟩ accented encoded_accent).mpr readAs_accent

/-- With no encoding declared, the byte order mark stays in the text. -/
theorem not_textExtract_encoded :
    ¬ ∀ (P : Packages) (s : String) (raw : ByteArray) (contentType : String), s ≠ "" →
      s.toList.head? ≠ some '\uFEFF' → Encoded P.registry s raw contentType →
        textExtract P raw contentType = .ok s := by
  intro hall
  have hmark := hall demoPackages "a" _ "text/plain" (by decide) (by decide) (.marked "text/plain")
  have hnone : declaredCharset "text/plain" = none := by decide
  rw [bom, ← String.toByteArray_append, textExtract_utf8 demoPackages _ hnone] at hmark
  exact marked_ne "a" (Except.ok.inj hmark)

end KaitoAutoIndexer.TextDecoding
