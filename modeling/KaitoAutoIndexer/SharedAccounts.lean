import KaitoAutoIndexer.Children

/-!
The service accounts, roles and role bindings of two AutoIndexers of one namespace.
-/

namespace KaitoAutoIndexer.SharedAccounts

open KaitoAutoIndexer.Lib KaitoAutoIndexer.Types KaitoAutoIndexer.Cluster
open KaitoAutoIndexer.Controller KaitoAutoIndexer.ControllerSpec KaitoAutoIndexer.Children

variable {mayFail : Prop} {w w1 w2 : World} {o A B : AutoIndexer} {desired existing child : Child}
  {updated : Child → Option Child} {l : List Child}

/-! ### What an ensure function wants -/

/-- The object is owned by the AutoIndexer, and it is as generated where that is compared. -/
def Wanted (o : AutoIndexer) (desired c : Child) : Prop :=
  o.uid ∈ c.owners ∧ c.body = desired.body

/-- The ensure function updates an object of the wanted kind and name unless it is as wanted,
and then makes it so. -/
structure Repairs (o : AutoIndexer) (desired : Child) (updated : Child → Option Child) : Prop where
  keeps : Keeps desired updated
  fresh : Wanted o desired desired
  idle_iff : ∀ c, updated c = none ↔ Wanted o desired c
  repaired : ∀ c c', updated c = some c' → Wanted o desired c'

/-- The first object at the place of `desired` is as wanted. -/
def Settled (o : AutoIndexer) (desired : Child) (l : List Child) : Prop :=
  ∃ c, l.head? = some c ∧ Wanted o desired c

lemma Repairs.settled (h : Repairs o desired updated) :
    Settled o desired (ensured desired updated l) := by
  cases l with
  | nil => exact ⟨desired, rfl, h.fresh⟩
  | cons existing others =>
    unfold ensured
    dsimp only
    split
    · rename_i child hu
      exact ⟨child, rfl, h.repaired existing child hu⟩
    · rename_i hu
      exact ⟨existing, rfl, (h.idle_iff existing).mp hu⟩

/-- What ensuring the service account writes. -/
def updatedAccount (o : AutoIndexer) (existing : Child) : Option Child :=
  if ¬ hasOwnerReference existing o then
    some { existing with
      owners := [o.uid], labels := resourceLabels o, body := (generateServiceAccountManifest o).body }
  else if existing.body ≠ (generateServiceAccountManifest o).body then
    some { existing with body := (generateServiceAccountManifest o).body }
  else none

/-- What ensuring a role or a role binding writes. -/
def updatedRole (o : AutoIndexer) (desired existing : Child) : Option Child :=
  if existing.body ≠ desired.body ∨ ¬ hasOwnerReference existing o then some desired else none

lemma hasOwnerReference_iff {c : Child} : hasOwnerReference c o = true ↔ o.uid ∈ c.owners := by
  simp [hasOwnerReference]

lemma repairs_account (o : AutoIndexer) :
    Repairs o (generateServiceAccountManifest o) (updatedAccount o) where
  keeps := by
    intro existing child hkind hname hu
    unfold updatedAccount at hu
    split at hu
    · cases hu
      exact ⟨hkind, hname⟩
    · split at hu
      · cases hu
        exact ⟨hkind, hname⟩
      · cases hu
  fresh := ⟨by simp [generateServiceAccountManifest], rfl⟩
  idle_iff := by
    intro c
    unfold updatedAccount Wanted
    rw [← hasOwnerReference_iff]
    split
    · rename_i ho
      simp [ho]
    · rename_i ho
      split
      · rename_i hb
        simp [hb]
      · rename_i hb
        exact ⟨fun _ => ⟨not_not.mp ho, not_not.mp hb⟩, fun _ => rfl⟩
  repaired := by
    intro c c' hu
    unfold updatedAccount at hu
    split at hu
    · cases hu
      exact ⟨List.mem_singleton_self _, rfl⟩
    · rename_i ho
      split at hu
      · cases hu
        exact ⟨hasOwnerReference_iff.mp (not_not.mp ho), rfl⟩
      · cases hu

lemma repairs_role (hd : o.uid ∈ desired.owners) : Repairs o desired (updatedRole o desired) where
  keeps := by
    intro existing child _ _ hu
    unfold updatedRole at hu
    split at hu
    · cases hu
      exact ⟨rfl, rfl⟩
    · cases hu
  fresh := ⟨hd, rfl⟩
  idle_iff := by
    intro c
    unfold updatedRole Wanted
    rw [← hasOwnerReference_iff]
    split
    · rename_i h
      simp only [reduceCtorEq, false_iff]
      tauto
    · rename_i h
      simp only [true_iff]
      tauto
  repaired := by
    intro c c' hu
    unfold updatedRole at hu
    split at hu
    · cases hu
      exact ⟨hd, rfl⟩
    · cases hu

/-! ### A call without writes -/

/-- The call changes something in the cluster. -/
def Writes : Call → Prop
  | .patch _ _ => True
  | .patchStatus _ _ => True
  | .update _ => True
  | .createChild _ => True
  | .updateChild _ => True
  | .createJob _ _ => True
  | .httpDeleteIndex _ _ => True
  | _ => False

/-- A further call for the AutoIndexer makes no write, whether or not its reads fail. -/
def AtRest (o : AutoIndexer) (w : World) : Prop :=
  Sat (Serves True) (.alone World) (fun _ c => ¬ Writes c) (fun _ _ => True) (ensureRBACResources o) w

lemma ensureChild_quiet (hr : Repairs o desired updated)
    (hs : Settled o desired (childrenAt w desired.kind desired.name)) :
    Sat (Serves True) (.alone World) (fun _ c => ¬ Writes c) (fun _ w' => w' = w)
      (ensureChild desired updated) w := by
  obtain ⟨existing, hhead, hwant⟩ := hs
  obtain ⟨others, hat⟩ := List.head?_eq_some_iff.mp hhead
  simp only [ensureChild, ask_bind]
  rintro _ rfl
  refine ⟨id, fun r w' h => ?_⟩
  rcases h with h | ⟨-, ⟨m, rfl⟩, h⟩
  · rw [serve_getChild, hat] at h
    cases h
    simp only [(hr.idle_iff existing).mpr hwant]
    rintro _ rfl
    rfl
  · obtain rfl : w' = w := by simpa using h
    rintro _ rfl
    rfl

/-- A call that makes no write has found the object as wanted. -/
lemma settled_of_quiet {Q : Err → World → Prop} (hr : Repairs o desired updated)
    (h : Sat (Serves True) (.alone World) (fun _ c => ¬ Writes c) Q (ensureChild desired updated) w) :
    Settled o desired (childrenAt w desired.kind desired.name) := by
  simp only [ensureChild, ask_bind] at h
  have hstep := (h.step (serves_serve True w (.getChild desired.kind desired.name))).2
  rw [serve_getChild] at hstep
  cases hat : childrenAt w desired.kind desired.name with
  | nil =>
    rw [hat] at hstep
    exact absurd trivial (hstep w rfl).1
  | cons existing others =>
    rw [hat] at hstep
    refine ⟨existing, rfl, (hr.idle_iff existing).mp ?_⟩
    by_contra hu
    obtain ⟨child, hu⟩ := Option.ne_none_iff_exists'.mp hu
    simp only [hu] at hstep
    exact absurd trivial (hstep w rfl).1

/-! ### The three objects of an AutoIndexer -/

/-- All three objects are there, as wanted. -/
structure Owns (o : AutoIndexer) (w : World) : Prop where
  account : Settled o (generateServiceAccountManifest o)
    (childrenAt w .serviceAccount (generateServiceAccountName o))
  role : Settled o (generateRoleManifest o) (childrenAt w .role (generateRoleName o))
  binding : Settled o (generateRoleBindingManifest o)
    (childrenAt w .roleBinding (generateRoleBindingName o))

lemma repairs_generatedRole (o : AutoIndexer) :
    Repairs o (generateRoleManifest o) (updatedRole o (generateRoleManifest o)) :=
  repairs_role (by simp [generateRoleManifest])

lemma repairs_generatedBinding (o : AutoIndexer) :
    Repairs o (generateRoleBindingManifest o) (updatedRole o (generateRoleBindingManifest o)) :=
  repairs_role (by simp [generateRoleBindingManifest])

lemma Owns.atRest (h : Owns o w) : AtRest o w := by
  refine (ensureChild_quiet (repairs_account o) h.account).bind ?_
  rintro (_ | e) _ rfl
  · refine (ensureChild_quiet (repairs_generatedRole o) h.role).bind ?_
    rintro (_ | e) _ rfl
    · refine (ensureChild_quiet (repairs_generatedBinding o) h.binding).bind ?_
      rintro (_ | e) _ rfl <;> exact fun _ _ => trivial
    · exact fun _ _ => trivial
  · exact fun _ _ => trivial

lemma AtRest.account (h : AtRest o w) : Settled o (generateServiceAccountManifest o)
    (childrenAt w .serviceAccount (generateServiceAccountName o)) :=
  settled_of_quiet (repairs_account o) ((sat_bind _ _ w).mp h)

/-- What a call that has succeeded leaves. -/
structure Ensures (o : AutoIndexer) (w w' : World) : Prop where
  account : childrenAt w' .serviceAccount (generateServiceAccountName o) =
    ensured (generateServiceAccountManifest o) (updatedAccount o)
      (childrenAt w .serviceAccount (generateServiceAccountName o))
  role : childrenAt w' .role (generateRoleName o) =
    ensured (generateRoleManifest o) (updatedRole o (generateRoleManifest o))
      (childrenAt w .role (generateRoleName o))
  binding : childrenAt w' .roleBinding (generateRoleBindingName o) =
    ensured (generateRoleBindingManifest o) (updatedRole o (generateRoleBindingManifest o))
      (childrenAt w .roleBinding (generateRoleBindingName o))
  elsewhere : ∀ kind name, ¬ (.serviceAccount = kind ∧ generateServiceAccountName o = name) →
    ¬ (.role = kind ∧ generateRoleName o = name) →
    ¬ (.roleBinding = kind ∧ generateRoleBindingName o = name) →
    childrenAt w' kind name = childrenAt w kind name

lemma ensureRBACResources_ensures (o : AutoIndexer) (w : World) :
    Runs (Serves mayFail) (fun e w' => e = none → Ensures o w w') (ensureRBACResources o) w := by
  refine (ensureChild_ensured (repairs_account o).keeps w).bind fun e w1 h1 => ?_
  cases e with
  | some e => exact nofun
  | none =>
    refine (ensureChild_ensured (repairs_generatedRole o).keeps w1).bind fun e w2 h2 => ?_
    cases e with
    | some e => exact nofun
    | none =>
      refine (ensureChild_ensured (repairs_generatedBinding o).keeps w2).bind fun e w3 h3 => ?_
      cases e with
      | some e => exact nofun
      | none =>
        intro _
        refine ⟨?_, ?_, ?_, fun kind name ha hr hb => ?_⟩
        · rw [h3.elsewhere _ _ (by simp [generateRoleBindingManifest]),
            h2.elsewhere _ _ (by simp [generateRoleManifest])]
          exact h1.done rfl
        · rw [h3.elsewhere _ _ (by simp [generateRoleBindingManifest]),
            ← h1.elsewhere .role (generateRoleName o) (by simp [generateServiceAccountManifest])]
          exact h2.done rfl
        · rw [← h1.elsewhere .roleBinding (generateRoleBindingName o)
              (by simp [generateServiceAccountManifest]),
            ← h2.elsewhere .roleBinding (generateRoleBindingName o) (by simp [generateRoleManifest])]
          exact h3.done rfl
        · rw [h3.elsewhere kind name hb, h2.elsewhere kind name hr, h1.elsewhere kind name ha]

lemma Ensures.owns (h : Ensures o w w1) : Owns o w1 where
  account := by
    rw [h.account]
    exact (repairs_account o).settled
  role := by
    rw [h.role]
    exact (repairs_generatedRole o).settled
  binding := by
    rw [h.binding]
    exact (repairs_generatedBinding o).settled

/-! ### Two AutoIndexers -/

/-- The service account that both name has both of them as owners, and suits both. -/
def Shared (A B : AutoIndexer) (l : List Child) : Prop :=
  ∃ c, l.head? = some c ∧ A.uid ∈ c.owners ∧ B.uid ∈ c.owners ∧
    (generateServiceAccountManifest A).body = (generateServiceAccountManifest B).body

/-- The account after a call of the AutoIndexer. -/
def accountOf (o : AutoIndexer) (existing : Child) : Child :=
  (updatedAccount o existing).getD existing

lemma accountOf_owners (o : AutoIndexer) (c : Child) :
    (accountOf o c).owners = if o.uid ∈ c.owners then c.owners else [o.uid] := by
  unfold accountOf updatedAccount
  simp only [hasOwnerReference_iff]
  by_cases ho : o.uid ∈ c.owners
  · by_cases hb : c.body = (generateServiceAccountManifest o).body <;> simp [ho, hb]
  · simp [ho]

lemma accountOf_body (o : AutoIndexer) (c : Child) :
    (accountOf o c).body = (generateServiceAccountManifest o).body := by
  unfold accountOf updatedAccount
  simp only [hasOwnerReference_iff]
  by_cases ho : o.uid ∈ c.owners
  · by_cases hb : c.body = (generateServiceAccountManifest o).body <;> simp [ho, hb]
  · simp [ho]

lemma head?_ensured_cons (c : Child) (others : List Child) :
    (ensured (generateServiceAccountManifest o) (updatedAccount o) (c :: others)).head? =
      some (accountOf o c) := by
  unfold ensured accountOf
  dsimp only
  split
  · rename_i child hu
    rw [hu]
    rfl
  · rename_i hu
    rw [hu]
    rfl

/-- After a call of `A` and then one of `B`, the account is as `A` wants it exactly when it had
both as owners, or `A` alone counts. -/
lemma wanted_accountOf_iff (hu : A.uid ≠ B.uid) {c : Child} (hA : A.uid ∈ c.owners) :
    Wanted A (generateServiceAccountManifest A) (accountOf B c) ↔ B.uid ∈ c.owners ∧
      (generateServiceAccountManifest A).body = (generateServiceAccountManifest B).body := by
  unfold Wanted
  rw [accountOf_owners, accountOf_body]
  by_cases hB : B.uid ∈ c.owners
  · simp [hB, hA, eq_comm]
  · simp [hB, hu]

lemma settled_ensured_iff (hu : A.uid ≠ B.uid) :
    Settled A (generateServiceAccountManifest A) (ensured (generateServiceAccountManifest B)
      (updatedAccount B) (ensured (generateServiceAccountManifest A) (updatedAccount A) l)) ↔
      Shared A B l := by
  obtain ⟨c, hc, hcA, hcB⟩ : ∃ c, (ensured (generateServiceAccountManifest A) (updatedAccount A)
      l).head? = some c ∧ A.uid ∈ c.owners ∧
        (B.uid ∈ c.owners ↔ ∃ e, l.head? = some e ∧ A.uid ∈ e.owners ∧ B.uid ∈ e.owners) := by
    cases l with
    | nil => exact ⟨_, rfl, List.mem_singleton_self _, by simp [generateServiceAccountManifest, hu.symm]⟩
    | cons e others =>
      refine ⟨_, head?_ensured_cons e others, ?_⟩
      rw [accountOf_owners]
      by_cases hA : A.uid ∈ e.owners
      · simp [hA]
      · simp [hA, hu.symm]
  obtain ⟨others, hat⟩ := List.head?_eq_some_iff.mp hc
  rw [hat]
  unfold Settled Shared
  rw [head?_ensured_cons]
  simp only [Option.some.injEq, exists_eq_left', wanted_accountOf_iff hu hcA, hcB]
  constructor
  · rintro ⟨⟨e, he, heA, heB⟩, hbody⟩
    exact ⟨e, he, heA, heB, hbody⟩
  · rintro ⟨e, he, heA, heB, hbody⟩
    exact ⟨⟨e, he, heA, heB⟩, hbody⟩

/-- The two need not fight over the service account. -/
def Peaceful (A B : AutoIndexer) (w : World) : Prop :=
  generateServiceAccountName A = generateServiceAccountName B →
    Shared A B (childrenAt w .serviceAccount (generateServiceAccountName A))

lemma append_ne_append {s t u : String} (h : s ≠ t) : s ++ u ≠ t ++ u := by
  intro he
  exact h ((String.append_left_inj u).mp he)

/-- **Two AutoIndexers of a namespace, with different names and UIDs, leave each other's
objects alone** exactly when they use different service accounts, or share one that has both of
them as owners and the annotations of both. -/
theorem calls_settle_iff (A B : AutoIndexer) (w w1 w2 : World) (hname : A.name ≠ B.name)
    (huid : A.uid ≠ B.uid) (hA : Ends (Serves True) (ensureRBACResources A) w none w1)
    (hB : Ends (Serves True) (ensureRBACResources B) w1 none w2) :
    (Owns A w2 ∧ Owns B w2 ∧ AtRest A w2) ↔ Peaceful A B w := by
  have h1 : Ensures A w w1 := (ensureRBACResources_ensures A w).ends hA rfl
  have h2 : Ensures B w1 w2 := (ensureRBACResources_ensures B w1).ends hB rfl
  have hrole : generateRoleName B ≠ generateRoleName A := append_ne_append hname.symm
  have hbinding : generateRoleBindingName B ≠ generateRoleBindingName A := append_ne_append hname.symm
  have hkeep : generateServiceAccountName A ≠ generateServiceAccountName B →
      Settled A (generateServiceAccountManifest A)
        (childrenAt w2 .serviceAccount (generateServiceAccountName A)) := by
    intro hs
    rw [h2.elsewhere _ _ (fun h => hs h.2.symm) (by simp) (by simp)]
    exact h1.owns.account
  have hshare : generateServiceAccountName A = generateServiceAccountName B →
      (Settled A (generateServiceAccountManifest A)
        (childrenAt w2 .serviceAccount (generateServiceAccountName A)) ↔
        Shared A B (childrenAt w .serviceAccount (generateServiceAccountName A))) := by
    intro hs
    have hacc := h2.account
    rw [← hs, h1.account] at hacc
    rw [hacc]
    exact settled_ensured_iff huid
  constructor
  · rintro ⟨hown, -, -⟩ hs
    exact (hshare hs).mp hown.account
  · intro hp
    have hown : Owns A w2 := by
      refine ⟨?_, ?_, ?_⟩
      · by_cases hs : generateServiceAccountName A = generateServiceAccountName B
        · exact (hshare hs).mpr (hp hs)
        · exact hkeep hs
      · rw [h2.elsewhere _ _ (by simp) (by simp [hrole]) (by simp)]
        exact h1.owns.role
      · rw [h2.elsewhere _ _ (by simp) (by simp) (by simp [hbinding])]
        exact h1.owns.binding
    exact ⟨hown, h2.owns, hown.atRest⟩

/-! ### Two AutoIndexers to evaluate -/

/-- An AutoIndexer with a workload identity. -/
def demoIdentity (name uid account : String) : AutoIndexer :=
  { demo with
    name := name
    uid := uid
    spec := { demo.spec with credentials := some ⟨.workloadIdentity, none, some (some
      ⟨account, "https://kusto.kusto.windows.net/.default", "6b9a2f4e-8d51-4a37-9c0e-2f1d7b3a5c68",
        "0d4c7e19-53ab-4f62-8e9d-a1b2c3d4e5f6"⟩)⟩ } }

/-- The cluster after a call for the AutoIndexer. -/
def afterCall (o : AutoIndexer) (w : World) : World := ((ensureRBACResources o).exec serve w).2

lemma ends_afterCall (h : ((ensureRBACResources o).exec serve w).1 = none) :
    Ends (Serves True) (ensureRBACResources o) w none (afterCall o w) := by
  have he := Ends.exec (ensureRBACResources o) w (serves_serve True)
  rwa [h] at he

/-- With accounts of their own the two are at peace. -/
theorem calls_settle_demo :
    let A := demoIdentity "docs" "u1" "docs-identity"
    let B := demoIdentity "code" "u2" "code-identity"
    let w := afterCall B (afterCall A demoWorld)
    Owns A w ∧ Owns B w ∧ AtRest A w := by
  have h := calls_settle_iff (demoIdentity "docs" "u1" "docs-identity")
    (demoIdentity "code" "u2" "code-identity") demoWorld _ _ (by decide) (by decide)
    (ends_afterCall (by rfl)) (ends_afterCall (by rfl))
  exact h.mpr fun hs => absurd hs (by decide)

/-- With one service account for both, the call for the second takes it from the first. -/
theorem not_calls_settle :
    ¬ ∀ (A B : AutoIndexer) (w w1 w2 : World), A.namespace_ = B.namespace_ → A.name ≠ B.name →
      A.uid ≠ B.uid → Ends (Serves True) (ensureRBACResources A) w none w1 →
      Ends (Serves True) (ensureRBACResources B) w1 none w2 →
      Owns A w2 ∧ Owns B w2 ∧ AtRest A w2 := by
  intro h
  have hown := (h (demoIdentity "docs" "u1" "identity") (demoIdentity "code" "u2" "identity")
    demoWorld _ _ rfl (by decide) (by decide) (ends_afterCall (by rfl)) (ends_afterCall (by rfl))).1
  obtain ⟨c, hc, ho, -⟩ := hown.account
  have howners : ∀ c', (childrenAt (afterCall (demoIdentity "code" "u2" "identity")
      (afterCall (demoIdentity "docs" "u1" "identity") demoWorld)) .serviceAccount
      "identity").head? = some c' → c'.owners = ["u2"] := by
    rintro c' ⟨⟩
    rfl
  rw [howners c hc] at ho
  revert ho
  decide

end KaitoAutoIndexer.SharedAccounts
