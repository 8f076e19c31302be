import KaitoAutoIndexer.ControllerSpec

/-!
The objects made for AutoIndexers, looked up by kind and name, and what ensuring one of them
does to them.
-/

namespace KaitoAutoIndexer.Children

open KaitoAutoIndexer.Lib KaitoAutoIndexer.Types KaitoAutoIndexer.Cluster
open KaitoAutoIndexer.Controller KaitoAutoIndexer.ControllerSpec

variable {mayFail : Prop} {w w' : World} {kind : ChildKind} {name : String} {child : Child}

/-- The objects of a kind and a name; the API server keeps one at most. -/
def childrenAt (w : World) (kind : ChildKind) (name : String) : List Child :=
  w.children.filter fun c => c.kind == kind && c.name == name

lemma mem_childrenAt {c : Child} :
    c ∈ childrenAt w kind name ↔ c ∈ w.children ∧ c.kind = kind ∧ c.name = name := by
  simp [childrenAt]

/-- The API server answers with the first of them. -/
lemma serve_getChild : serve w (.getChild kind name) = (match childrenAt w kind name with
    | c :: _ => .ok c
    | [] => .error .notFound, w) := by
  have hfind : w.children.find? (fun c => c.kind == kind && c.name == name) =
      (childrenAt w kind name).head? := (List.head?_filter).symm
  simp only [serve, hfind]
  cases childrenAt w kind name <;> rfl

lemma childrenAt_create (kind : ChildKind) (name : String) :
    childrenAt { w with children := w.children ++ [child] } kind name =
      childrenAt w kind name ++ if child.kind = kind ∧ child.name = name then [child] else [] := by
  unfold childrenAt
  rw [List.filter_append]
  by_cases h : child.kind = kind ∧ child.name = name
  · simp [h]
  · rw [if_neg h, List.filter_cons_of_neg (by simpa using h), List.filter_nil]

lemma childrenAt_update (kind : ChildKind) (name : String) :
    childrenAt (serve w (.updateChild child)).2 kind name =
      if child.kind = kind ∧ child.name = name then (childrenAt w kind name).map fun _ => child
      else childrenAt w kind name := by
  unfold childrenAt
  simp only [serve]
  induction w.children with
  | nil => simp
  | cons c cs ih =>
    rw [List.map_cons, List.filter_cons, List.filter_cons, ih]
    by_cases hc : c.kind = child.kind ∧ c.name = child.name
    · by_cases hk : child.kind = kind ∧ child.name = name
      · obtain ⟨rfl, rfl⟩ := hk
        simp [hc]
      · have h1 : (child.kind == kind && child.name == name) = false := by simpa using hk
        simp only [hc, and_self, if_true, h1, hk, if_false, Bool.false_eq_true]
    · by_cases hk : child.kind = kind ∧ child.name = name
      · obtain ⟨rfl, rfl⟩ := hk
        have h2 : (c.kind == child.kind && c.name == child.name) = false := by simpa using hc
        simp only [hc, if_false, h2, Bool.false_eq_true, and_self, if_true]
      · simp only [hc, hk, if_false]

/-! ### Ensuring an object -/

/-- The objects of the kind and name of `desired` once it has been ensured. -/
def ensured (desired : Child) (updated : Child → Option Child) : List Child → List Child
  | [] => [desired]
  | existing :: others =>
    match updated existing with
    | some child => child :: others.map fun _ => child
    | none => existing :: others

variable {desired : Child} {updated : Child → Option Child}

/-- An update keeps the kind and the name. -/
def Keeps (desired : Child) (updated : Child → Option Child) : Prop :=
  ∀ existing child, existing.kind = desired.kind → existing.name = desired.name →
    updated existing = some child → child.kind = desired.kind ∧ child.name = desired.name

/-- What the call leaves: the objects elsewhere, and those in its place as they were or as they
should be. -/
structure Ensured (desired : Child) (updated : Child → Option Child) (w : World) (e : Err)
    (w' : World) : Prop where
  same : SameButChildren w w'
  elsewhere : ∀ kind name, ¬ (desired.kind = kind ∧ desired.name = name) →
    childrenAt w' kind name = childrenAt w kind name
  here : childrenAt w' desired.kind desired.name = childrenAt w desired.kind desired.name ∨
    childrenAt w' desired.kind desired.name =
      ensured desired updated (childrenAt w desired.kind desired.name)
  done : e = none → childrenAt w' desired.kind desired.name =
    ensured desired updated (childrenAt w desired.kind desired.name)

lemma Ensured.unchanged (e : Err) (he : e = none →
    ensured desired updated (childrenAt w desired.kind desired.name) =
      childrenAt w desired.kind desired.name) : Ensured desired updated w e w :=
  ⟨.refl w, fun _ _ _ => rfl, .inl rfl, fun h => (he h).symm⟩

lemma ensured_of_create {r : Except ApiError Unit}
    (hnone : childrenAt w desired.kind desired.name = [])
    (h : Serves mayFail w (.createChild desired) r w') :
    Ensured desired updated w (errOf r) w' := by
  rcases h with h | ⟨-, ⟨m, rfl⟩, h⟩
  · cases h
    have hhere : childrenAt { w with children := w.children ++ [desired] } desired.kind desired.name =
        ensured desired updated (childrenAt w desired.kind desired.name) := by
      rw [childrenAt_create, hnone]
      simp [ensured]
    refine ⟨⟨_, rfl⟩, fun kind name hk => ?_, .inr hhere, fun _ => hhere⟩
    rw [childrenAt_create, if_neg hk, List.append_nil]
  · obtain rfl : w' = w := by simpa using h
    exact .unchanged _ nofun

lemma ensured_of_update {r : Except ApiError Unit} {existing : Child} {others : List Child}
    (hat : childrenAt w desired.kind desired.name = existing :: others)
    (hupd : updated existing = some child)
    (hkey : child.kind = desired.kind ∧ child.name = desired.name)
    (h : Serves mayFail w (.updateChild child) r w') : Ensured desired updated w (errOf r) w' := by
  rcases h with h | ⟨-, ⟨m, rfl⟩, h⟩
  · obtain ⟨rfl, rfl⟩ : r = .ok () ∧ w' = (serve w (.updateChild child)).2 :=
      ⟨congrArg Prod.fst h, congrArg Prod.snd h⟩
    have hhere : childrenAt (serve w (.updateChild child)).2 desired.kind desired.name =
        ensured desired updated (childrenAt w desired.kind desired.name) := by
      rw [childrenAt_update, if_pos hkey, hat]
      simp [ensured, hupd]
    refine ⟨⟨_, rfl⟩, fun kind name hk => ?_, .inr hhere, fun _ => hhere⟩
    rw [childrenAt_update, hkey.1, hkey.2, if_neg hk]
  · obtain rfl : w' = w := by simpa using h
    exact .unchanged _ nofun

lemma ensureChild_ensured (hk : Keeps desired updated) (w : World) :
    Runs (Serves mayFail) (fun e w' => Ensured desired updated w e w')
      (ensureChild desired updated) w := by
  simp only [ensureChild, ask_bind, runs_ask]
  intro r w' h
  rcases h with h | ⟨-, ⟨m, rfl⟩, h⟩
  · rw [serve_getChild] at h
    cases hat : childrenAt w desired.kind desired.name with
    | nil =>
      rw [hat] at h
      cases h
      exact fun r w' h => ensured_of_create hat h
    | cons existing others =>
      rw [hat] at h
      cases h
      cases hu : updated existing with
      | none =>
        simp only [hu]
        refine .unchanged none fun _ => ?_
        rw [hat]
        simp [ensured, hu]
      | some child =>
        simp only [hu]
        have hmem : existing ∈ childrenAt w desired.kind desired.name := by simp [hat]
        obtain ⟨-, hkind, hname⟩ := mem_childrenAt.mp hmem
        exact fun r w' h => ensured_of_update hat hu (hk existing child hkind hname hu) h
  · obtain rfl : w' = w := by simpa using h
    exact .unchanged _ nofun

end KaitoAutoIndexer.Children
