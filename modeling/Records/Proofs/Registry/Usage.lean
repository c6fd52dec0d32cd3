import Records.Proofs.Registry.Bare
import Records.Proofs.Registry.Identity
import Records.Proofs.Registry.Ledger
import Records.Proofs.Registry.Retention
import Records.Proofs.Registry.Settlement
import Records.Proofs.Registry.Written

/-!
# Registries in use

A registry is asked for keys and types, is reset, and defines types, whose definitions wait at their
calls and go on in any order. It provides a type for every key it is handed, in all its states. The
type has the structure of the key as long as the registry is only handed keys that it issued itself,
before a reset or after it; a key that another registry issued may have the number of an own one,
and then the nearest type along the chain decides.

## Main definitions

* `Usage`: a registry in use, with all keys that it has issued.
* `Usage.Reachable`: the states of a registry that is handed keys of a kind.

## Main statements

* `keeps_prefabTypeOfDatum`, `keeps_prefabInstance`, `keeps_define`: operations that are handed no
  key keep the ledger.
* `Usage.Reachable.sound`: what holds in all states.
* `Usage.Reachable.prefabType_honours`: when the type of a key has the structure of the key.
-/

namespace Records

variable {r : RegistryId} {s s' : Store} {issued : List PrefabKey} {k : PrefabKey} {t : TypeId}
  {d : Declaration}

/-! ### Operations that are handed no key -/

lemma keeps_keyOfType (r : RegistryId) (t : TypeId) (s : Store) :
    (keyOfType r t).Ensures (Store.Keeps r) (fun _ _ => True) s :=
  ⟨.internChain s r ((s.type t).prefabLevel :: s.inheritedLevels (s.type t).superType),
    fun _ _ => trivial⟩

lemma keeps_keyOfDeclaration (r : RegistryId) (d : Declaration) (s : Store) :
    (keyOfDeclaration r d).Ensures (Store.Keeps r) (fun _ _ => True) s :=
  ⟨.internChain s r (s.declaredLevels d), fun _ _ => trivial⟩

/-- The key of a datum is known then. -/
lemma keeps_keyOfDatum (hs : s.Founded r) (datum : Value) (total : Nat) :
    (keyOfDatum r datum total).Ensures (Store.Keeps r)
      (fun k s' => s'.Founded r ∧ k ∈ (s'.catalog r).keys) s := by
  rw [StoreM.Ensures, run_keyOfDatum]
  cases hd : PrefabDatum.parse? datum with
  | none => exact ⟨refl_of (Store.Keeps r) s, fun k hk => by cases hk⟩
  | some d =>
    have hdevelops : (s.catalog r).Develops 0 ((s.catalog r).internDatum d total).2 :=
      (s.catalog r).develops_internDatum (PrefabDatum.bounded_of_parse? hd) total
    have hkeeps : s.Keeps r (s.updateCatalog r ((s.catalog r).internDatum d total).2) :=
      .updateCatalog ((s.catalog r).types_internDatum d total) hdevelops.extends_catalog.keys
        fun _ h => h.internDatum d total
    have hmem := (s.catalog r).internDatum_mem d total
    rcases hintern : (s.catalog r).internDatum d total with ⟨_ | k, c⟩ <;>
      rw [hintern] at hkeeps hmem <;> simp only [hintern]
    · exact ⟨hkeeps, fun k hk => by cases hk⟩
    · refine ⟨hkeeps, ?_⟩
      rintro _ ⟨⟩
      refine ⟨(hkeeps hs).founded, ?_⟩
      rw [Store.catalog_updateCatalog hs.exists_registry]
      exact hmem k rfl

/-- Providing the type of a known key. -/
lemma keeps_prefabType (hs : s.Founded r) (hk : k ∈ (s.catalog r).keys) :
    (prefabType r k).Ensures (Store.Keeps r) (fun _ _ => True) s := by
  obtain ⟨t, s', hrun, hprovides⟩ := exists_provides r k s
  rw [StoreM.Ensures, hrun]
  refine ⟨fun _ => ?_, fun _ _ => trivial⟩
  have hkeys := hprovides.keys_eq hs.exists_registry
  refine ⟨(hprovides.registered hs).1, hprovides.enlarges.evolves, fun k hk => by rwa [hkeys],
    fun issued h => ?_⟩
  exact (hprovides.ledger h (h.issues.mem k hk)).append_keys

lemma keeps_prefabTypeOfDatum (hs : s.Founded r) (datum : Value) (total : Nat) :
    (prefabTypeOfDatum r datum total).Ensures (Store.Keeps r) (fun _ _ => True) s :=
  (keeps_keyOfDatum hs datum total).bind fun _ _ _ h => keeps_prefabType h.1 h.2

lemma keeps_newInstance (r : RegistryId) (t : TypeId) (values : List Value) (s : Store) :
    (newInstance t values).Ensures (Store.Keeps r) (fun _ _ => True) s := by
  rw [StoreM.Ensures, run_newInstance]
  refine ⟨?_, fun _ _ => trivial⟩
  split
  · have he : s.Enlarges { s with instances := s.instances.push ⟨t, (values.map .raw).toArray⟩ } :=
      .of_types_eq rfl
    exact .of_evolves he.evolves id (Nat.le_refl _) rfl
  · exact refl_of (Store.Keeps r) s

lemma keeps_prefabInstance (hs : s.Founded r) (datum : Value) (values : List Value) :
    (prefabInstance r datum values).Ensures (Store.Keeps r) (fun _ _ => True) s := by
  refine (keeps_keyOfDatum hs datum values.length).bind fun k s₁ _ h => ?_
  split
  · exact (keeps_prefabType h.1 h.2).bind fun t s₂ _ _ => keeps_newInstance r t values s₂
  · exact StoreM.ensures_raise _ s₁

/-! ### Definitions -/

/-- The super type of a declaration is there. -/
def Store.HasSuper (s : Store) (d : Declaration) : Prop :=
  ∀ u, d.superType = some u → u.index < s.types.size

lemma keeps_declare (hsuper : s.HasSuper d) :
    (declare d).Ensures (Store.Keeps r) (fun _ _ => True) s := by
  rw [StoreM.Ensures, run_declare]
  refine ⟨?_, fun _ _ => trivial⟩
  cases hl : s.layOut d with
  | error c => exact refl_of (Store.Keeps r) s
  | ok type => exact .push hl hsuper

namespace Store

/-- What a prefab declaration that keeps to the restrictions is laid out as. -/
lemma registrable_of_declared {type : RecordType} (hd : d.inspector = .prefab)
    (hr : s'.prefabRestriction? d = none) (hl : s.layOut d = .ok type) :
    type.Registrable ∧ type.superType = d.superType ∧ type.prefabLevel = d.prefabLevel := by
  obtain ⟨immutables, himmutables, rfl⟩ := layOut_eq_ok_iff.1 hl
  obtain ⟨rfl, hlt⟩ := declaredImmutables_eq_ok himmutables (prefabRestriction?_eq_none hr).2
  refine ⟨⟨by simp [RecordType.isPrefab, hd], guard_of_prefabRestriction? hr, fun i hi => ?_⟩,
    rfl, rfl⟩
  exact hlt i (FieldSet.mem_ofList.1 hi)

/-- The key of a declaration has the declared structure. -/
lemma Ledger.declaredKey (h : s.Ledger r issued) (d : Declaration) :
    s.declaredKey r d ∈ ((s.internDeclared r d).catalog r).keys ∧
      SameChain (s.declaredKey r d).levels (s.declaredLevels d) := by
  obtain ⟨-, hmem, hchain⟩ := h.issues.numbered.internChain (s.declaredLevels d)
  refine ⟨?_, hchain⟩
  rw [internDeclared, catalog_updateCatalog h.exists_registry]
  exact hmem

lemma keeps_internDeclared (s : Store) (r : RegistryId) (d : Declaration) :
    s.Keeps r (s.internDeclared r d) :=
  .internChain s r (s.declaredLevels d)

/-- The type that was laid out for a declaration is registered for its key. -/
lemma Founded.enrollDeclared {type : RecordType} (hs : s.Founded r) (hd : d.inspector = .prefab)
    (hr : s.prefabRestriction? d = none) (hsuper : s.HasSuper d)
    (hl : (s.internDeclared r d).layOut d = .ok type) :
    s.Maintains r ((s.internDeclared r d).enroll r (s.declaredKey r d) type) := by
  obtain ⟨hregistrable, hsuperType, hlevel⟩ := registrable_of_declared hd hr hl
  obtain ⟨hs₁, he₁, hkeys₁, hledger₁⟩ := s.keeps_internDeclared r d hs
  have hlt : ∀ u, type.superType = some u → u.index < (s.internDeclared r d).types.size := by
    rw [hsuperType]
    exact hsuper
  have he := (s.internDeclared r d).enlarges_enroll r (s.declaredKey r d) type
  have hkeys := keys_enroll hs₁.exists_registry (s.declaredKey r d) type
  refine ⟨hs₁.enroll _ hlt, he₁.trans he.evolves, fun k hk => ?_, fun issued h => ?_⟩
  · rw [hkeys]
    exact hkeys₁ k hk
  · obtain ⟨hmem, hchain⟩ := h.declaredKey d
    rw [hkeys]
    refine (hledger₁ issued h).enroll (List.mem_append_left _ hmem) hregistrable hlt fun _ => ?_
    rw [hlevel, hsuperType, he₁.inheritedLevels_eq hs₁.ordered hsuper]
    exact hchain

end Store

/-- Finding the type of a prefab declaration, or registering it. -/
lemma keeps_prefabTypeOfDeclaration (hs : s.Founded r) (hd : d.inspector = .prefab)
    (hsuper : s.HasSuper d) :
    (prefabTypeOfDeclaration r d).Ensures (Store.Keeps r) (fun _ s' => s'.HasSuper d) s := by
  have hkeeps := s.keeps_internDeclared r d
  rw [StoreM.Ensures, run_prefabTypeOfDeclaration]
  cases hr : s.prefabRestriction? d with
  | some what => exact ⟨refl_of (Store.Keeps r) s, fun t ht => by cases ht⟩
  | none =>
    cases hk : s.typeFor? r (s.declaredKey r d) with
    | some t => exact ⟨hkeeps, fun _ _ => hsuper⟩
    | none =>
      simp only [Store.run_declare_register]
      cases hl : (s.internDeclared r d).layOut d with
      | error c => exact ⟨hkeeps, fun t ht => by cases ht⟩
      | ok type =>
        have hmaintains := hs.enrollDeclared hd hr hsuper hl
        exact ⟨fun _ => hmaintains, fun _ _ u hu => hmaintains.evolves.lt (hsuper u hu)⟩

lemma keeps_prepare (hs : s.Founded r) (hsuper : s.HasSuper d) :
    (prepare r d).Ensures (Store.Keeps r) (fun _ _ => True) s := by
  unfold prepare
  by_cases hd : d.inspector = .prefab
  · rw [if_pos hd]
    refine .bind (.ofStoreM (keeps_prefabTypeOfDeclaration hs hd hsuper)) fun t s₁ hsuper₁ => ?_
    refine .bind (.ofStoreM (StoreM.ensures_get s₁)) ?_
    rintro _ _ ⟨rfl, rfl⟩
    split
    · split
      · trivial
      · exact .bind (.ofStoreM (keeps_declare hsuper₁)) fun _ _ _ => trivial
    · trivial
  · rw [if_neg hd]
    exact .bind (.ofStoreM (keeps_declare hsuper)) fun _ _ _ => trivial

/-- A definition keeps the ledger, whatever happens in its calls. -/
theorem keeps_define (hs : s.Founded r) (hsuper : s.HasSuper d) :
    (define r d).Ensures (Store.Keeps r) (fun _ _ => True) s := by
  rw [define_eq_phases]
  refine .bind (keeps_prepare hs hsuper) fun plan s _ => ?_
  exact plan.ensures_rest d (fun s t a _ => .publish s t _) s

/-! ### Requests -/

/-- What is asked of a registry besides definitions. -/
inductive Request where
  | intern (level : PrefabLevel) (super : Option PrefabKey)
  | keyOfType (t : TypeId)
  | keyOfDeclaration (d : Declaration)
  | keyOfDatum (datum : Value) (total : Nat)
  | prefabType (k : PrefabKey)
  | prefabTypeOfDatum (datum : Value) (total : Nat)
  | prefabInstance (datum : Value) (values : List Value)
  | reset

namespace Request

/-- The keys that are handed in. -/
def keys : Request → List PrefabKey
  | .intern _ super => super.toList
  | .prefabType k => [k]
  | _ => []

/-- The store that is left behind. -/
def perform (r : RegistryId) (s : Store) : Request → Store
  | .intern level super => ((withCatalog r (·.intern level super)).run s).2
  | .keyOfType t => ((Records.keyOfType r t).run s).2
  | .keyOfDeclaration d => ((Records.keyOfDeclaration r d).run s).2
  | .keyOfDatum datum total => ((Records.keyOfDatum r datum total).run s).2
  | .prefabType k => ((Records.prefabType r k).run s).2
  | .prefabTypeOfDatum datum total => ((Records.prefabTypeOfDatum r datum total).run s).2
  | .prefabInstance datum values => ((Records.prefabInstance r datum values).run s).2
  | .reset => ((resetRegistry r).run s).2

lemma founded_perform (q : Request) (hs : s.Founded r) : (q.perform r s).Founded r := by
  cases q with
  | intern level super => exact hs.updateCatalog (PrefabCatalog.types_intern _ level super)
  | keyOfType t => exact ((keeps_keyOfType r t s).1 hs).founded
  | keyOfDeclaration d => exact ((keeps_keyOfDeclaration r d s).1 hs).founded
  | keyOfDatum datum total => exact ((keeps_keyOfDatum hs datum total).1 hs).founded
  | prefabType k =>
    obtain ⟨t, s', hrun, hprovides⟩ := exists_provides r k s
    rw [perform, hrun]
    exact (hprovides.registered hs).1
  | prefabTypeOfDatum datum total => exact ((keeps_prefabTypeOfDatum hs datum total).1 hs).founded
  | prefabInstance datum values => exact ((keeps_prefabInstance hs datum values).1 hs).founded
  | reset => exact hs.reset

/-- The ledger goes on if only issued keys are handed in. -/
lemma ledger_perform (q : Request) (h : s.Ledger r issued) (hq : ∀ k ∈ q.keys, k ∈ issued) :
    (q.perform r s).Ledger r (((q.perform r s).catalog r).keys ++ issued) := by
  have hs := h.toFounded
  cases q with
  | intern level super =>
    have hsuper : ∀ k ∈ super, k ∈ issued := fun k hk => hq k (Option.mem_toList.2 hk)
    have hissues := h.issues.intern level hsuper
    have hcatalog := Store.catalog_updateCatalog h.exists_registry
      ((s.catalog r).intern level super).2
    have hledger := h.updateCatalog hissues
    rw [perform]
    simp only [run_withCatalog]
    rw [hcatalog]
    exact hledger
  | keyOfType t => exact ((keeps_keyOfType r t s).1 hs).ledger issued h
  | keyOfDeclaration d => exact ((keeps_keyOfDeclaration r d s).1 hs).ledger issued h
  | keyOfDatum datum total => exact ((keeps_keyOfDatum hs datum total).1 hs).ledger issued h
  | prefabType k =>
    obtain ⟨t, s', hrun, hprovides⟩ := exists_provides r k s
    have hledger := hprovides.ledger h (hq k (List.mem_singleton_self k))
    rw [perform, hrun]
    exact hledger.append_keys
  | prefabTypeOfDatum datum total =>
    exact ((keeps_prefabTypeOfDatum hs datum total).1 hs).ledger issued h
  | prefabInstance datum values =>
    exact ((keeps_prefabInstance hs datum values).1 hs).ledger issued h
  | reset => exact h.reset.append_keys

end Request

/-! ### Usage -/

/-- A registry in use. -/
structure Usage where
  store : Store
  /-- The keys that the registry has issued, those from before a reset included. -/
  issued : List PrefabKey := []
  /-- The definitions that wait at a call. -/
  underway : List (List Value → Computation (List Value)) := []

namespace Usage

/-- The registry moves on to another store. -/
def moveTo (U : Usage) (r : RegistryId) (s : Store) : Usage :=
  { U with store := s, issued := (s.catalog r).keys ++ U.issued }

/-- A definition goes on, up to its next call or to its end. -/
def go (U : Usage) (r : RegistryId) (c : Computation (List Value)) : Usage :=
  match c.advance.run U.store with
  | (.ok (.suspended _ _ resume), s) => { U with underway := resume :: U.underway }.moveTo r s
  | (_, s) => U.moveTo r s

/-- The states of a registry that began without keys. Each key that it is handed is of a kind. -/
inductive Reachable (r : RegistryId) (Handed : Usage → PrefabKey → Prop) : Usage → Prop
  | start {s : Store} (hr : r.index < s.registries.size) (hkeys : (s.catalog r).keys = [])
      (htypes : (s.catalog r).types = []) (hordered : s.Ordered) : Reachable r Handed { store := s }
  | request {U : Usage} (q : Request) (h : Reachable r Handed U)
      (hkeys : ∀ k ∈ q.keys, Handed U k) : Reachable r Handed (U.moveTo r (q.perform r U.store))
  | begin {U : Usage} (d : Declaration) (h : Reachable r Handed U) (hsuper : U.store.HasSuper d) :
      Reachable r Handed (U.go r (define r d))
  | resume {U : Usage} {before after : List (List Value → Computation (List Value))}
      (resume : List Value → Computation (List Value)) (h : Reachable r Handed U)
      (hunderway : U.underway = before ++ resume :: after) (results : List Value) :
      Reachable r Handed ({ U with underway := before ++ after }.go r (resume results))
  /-- Whatever else happens to the store, and to other registries. -/
  | other {U : Usage} {s : Store} (h : Reachable r Handed U) (he : U.store.Evolves s)
      (hordered : s.Ordered) (hr : U.store.registries.size ≤ s.registries.size)
      (hc : s.catalog r = U.store.catalog r) : Reachable r Handed { U with store := s }

/-- The registry is handed keys that it issued itself. -/
def Issued (U : Usage) (k : PrefabKey) : Prop := k ∈ U.issued

/-- What holds of a registry in use; a ledger is kept if it is handed its own keys only. -/
structure Sound (r : RegistryId) (own : Prop) (U : Usage) : Prop where
  founded : U.store.Founded r
  ledger : own → U.store.Ledger r U.issued
  underway : ∀ f ∈ U.underway, ∀ results s,
    (f results).Ensures (Store.Keeps r) (fun _ _ => True) s

variable {U : Usage} {own : Prop} {Handed : Usage → PrefabKey → Prop}

/-- A definition that goes on keeps the ledger, and what is left of it will. -/
lemma Sound.go (h : U.Sound r own) {c : Computation (List Value)}
    (hc : c.Ensures (Store.Keeps r) (fun _ _ => True) U.store) : (U.go r c).Sound r own := by
  have hmoves := hc.advance h.founded
  have hresume : ∀ p args resume, (c.advance.run U.store).1 = .ok (.suspended p args resume) →
      ∀ results s, (resume results).Ensures (Store.Keeps r) (fun _ _ => True) s :=
    fun _ _ _ hstep => hc.resume hstep
  unfold Usage.go
  rcases hrun : c.advance.run U.store with ⟨e | a | ⟨p, args, resume⟩, s⟩ <;>
    rw [hrun] at hmoves hresume
  · exact ⟨hmoves.founded, fun hown => hmoves.ledger _ (h.ledger hown), h.underway⟩
  · exact ⟨hmoves.founded, fun hown => hmoves.ledger _ (h.ledger hown), h.underway⟩
  · refine ⟨hmoves.founded, fun hown => hmoves.ledger _ (h.ledger hown), ?_⟩
    exact List.forall_mem_cons.2 ⟨hresume p args resume rfl, h.underway⟩

/-- A registry in use is founded, and keeps a ledger if it is handed its own keys only. -/
theorem Reachable.sound (h : U.Reachable r Handed) : U.Sound r (Handed ≤ Issued) := by
  induction h with
  | @start s hr hkeys htypes hordered =>
    have hnone : ∀ k, s.typeFor? r k = none := fun k => by
      show (s.catalog r).typeFor? k = none
      rw [PrefabCatalog.typeFor?, htypes]
      rfl
    have hfounded : s.Founded r := by
      refine ⟨⟨hr, fun k t ht => ?_⟩, hordered⟩
      rw [hnone] at ht
      cases ht
    have hissues : (s.catalog r).Issues [] := by
      refine ⟨?_, List.forall_mem_nil _, List.forall_mem_nil _, List.forall_mem_nil _,
        fun k t ht => ?_⟩
      · rw [hkeys]
        exact List.forall_mem_nil _
      · cases (hnone k).symm.trans ht
    refine ⟨hfounded, fun _ => ⟨hfounded, hissues, fun k t ht => ?_, List.forall_mem_nil _⟩,
      List.forall_mem_nil _⟩
    cases (hnone k).symm.trans ht
  | request q _ hkeys ih =>
    refine ⟨q.founded_perform ih.founded, fun hown => ?_, ih.underway⟩
    exact q.ledger_perform (ih.ledger hown) fun k hk => hown _ k (hkeys k hk)
  | begin d _ hsuper ih => exact ih.go (keeps_define ih.founded hsuper)
  | @resume U before after f _ hunderway results ih =>
    have hsubset : ∀ g, g ∈ before ++ after → g ∈ U.underway := by
      rw [hunderway]
      simp only [List.mem_append, List.mem_cons]
      exact fun g hg => hg.imp_right .inr
    have hrest : Sound r (Handed ≤ Issued) { U with underway := before ++ after } :=
      ⟨ih.founded, ih.ledger, fun g hg => ih.underway g (hsubset g hg)⟩
    refine hrest.go (ih.underway f ?_ results _)
    rw [hunderway]
    exact List.mem_append_right _ List.mem_cons_self
  | other _ he hordered hr hc ih =>
    exact ⟨ih.founded.of_evolves he hordered hr hc,
      fun hown => (ih.ledger hown).of_evolves he hordered hr hc, ih.underway⟩

/-- In every state of a registry a type is provided for every key, whoever issued it. If its levels
are sensible and no two of the keys that have no type yet share a number, the type has the
structure of the key exactly if the nearest registered type along its chain has the structure of
the key it is taken for. In a registry that is only handed keys that it issued, this is so for all
issued keys. -/
theorem Reachable.prefabType_honours (h : U.Reachable r Handed) (k : PrefabKey) :
    ∃ t s', (prefabType r k).run U.store = (.ok t, s') ∧
      (k.Bounded → (U.store.missing r k.chain).Nodup →
        (s'.Honours k t ↔
          ∀ k' u, U.store.nearest? r k.chain = some (k', u) → U.store.Honours k' u)) ∧
      (Handed ≤ Issued → k ∈ U.issued → k.Bounded → s'.Honours k t) := by
  obtain ⟨hfounded, hledger, -⟩ := h.sound
  obtain ⟨t, s', hrun, hprovides⟩ := exists_provides r k U.store
  refine ⟨t, s', hrun, hprovides.honours_iff hfounded, fun hown hk hbounded => ?_⟩
  have hs' := hprovides.ledger (hledger hown) hk
  exact hs'.honours k hk hbounded t (hprovides.registered hfounded).2.1

/-! ### Own keys and other keys -/

lemma bounded_plainLevel (name : String) (initCount : Nat) :
    (plainLevel name initCount).Bounded :=
  fun _ hi => nomatch FieldSet.mem_def.1 hi

/-- The first key of the catalog. -/
def ownKey : PrefabKey := ⟨⟨⟨0⟩, 0⟩, plainLevel "y" 0, []⟩

/-- A registry that has issued a key and provided its type. -/
def provided : Usage :=
  let U : Usage := { store := Session.initial.store }
  let interned := U.moveTo ⟨0⟩ ((Request.intern (plainLevel "y" 0) none).perform ⟨0⟩ U.store)
  interned.moveTo ⟨0⟩ ((Request.prefabType ownKey).perform ⟨0⟩ interned.store)

lemma reachable_initial : Reachable ⟨0⟩ Issued { store := Session.initial.store } :=
  .start (by decide) rfl rfl fun _ _ hsuper => nomatch hsuper

lemma reachable_provided : provided.Reachable ⟨0⟩ Issued := by
  refine .request (.prefabType ownKey)
    (.request (.intern (plainLevel "y" 0) none) reachable_initial nofun) ?_
  rintro _ (_ | ⟨_, ⟨⟩⟩)
  exact List.mem_cons_self

/-- The key of a point. -/
def pointKey : PrefabKey := ⟨⟨⟨0⟩, 0⟩, plainLevel "pt" 2, []⟩

/-- The key of a point with one more field. -/
def spaceKey : PrefabKey := ⟨⟨⟨0⟩, 1⟩, plainLevel "pt3" 1, [(pointKey.id, pointKey.level)]⟩

/-- Both keys are interned and the types of the second one are provided. Behind a reset the type of
the first one is provided once more. -/
def aged : Usage :=
  let ask (q : Request) (U : Usage) : Usage := U.moveTo ⟨0⟩ (q.perform ⟨0⟩ U.store)
  let interned := ask (.intern spaceKey.level (some pointKey)) <|
    ask (.intern pointKey.level none) { store := Session.initial.store }
  ask (.prefabType pointKey) <| ask .reset <| ask (.prefabType spaceKey) interned

lemma reachable_aged : aged.Reachable ⟨0⟩ Issued := by
  refine .request (.prefabType pointKey) (.request .reset (.request (.prefabType spaceKey)
    (.request (.intern spaceKey.level (some pointKey))
      (.request (.intern pointKey.level none) reachable_initial nofun) ?_) ?_) nofun) ?_
  · rintro _ (_ | ⟨_, ⟨⟩⟩)
    exact List.mem_cons_self
  · rintro _ (_ | ⟨_, ⟨⟩⟩)
    exact List.mem_cons_self
  · rintro _ (_ | ⟨_, ⟨⟩⟩)
    exact List.mem_cons_of_mem spaceKey List.mem_cons_self

/-- The type of the longer key is provided on top of the one that is there behind the reset. -/
theorem Reachable.prefabType_honours_aged :
    aged.Reachable ⟨0⟩ Issued ∧ spaceKey ∈ aged.issued ∧
      spaceKey ∉ (aged.store.catalog ⟨0⟩).keys ∧ spaceKey.Bounded ∧
      (aged.store.missing ⟨0⟩ spaceKey.chain).Nodup ∧
      aged.store.nearest? ⟨0⟩ spaceKey.chain = some (pointKey, ⟨2⟩) ∧
      ∃ t s', (prefabType ⟨0⟩ spaceKey).run aged.store = (.ok t, s') ∧ s'.Honours spaceKey t ∧
        aged.store.Honours pointKey ⟨2⟩ := by
  have hissued : spaceKey ∈ aged.issued := List.mem_cons_self
  have hbounded : spaceKey.Bounded := by
    intro l hl
    rcases List.mem_pair.1 hl with rfl | rfl
    · exact bounded_plainLevel "pt3" 1
    · exact bounded_plainLevel "pt" 2
  have hnodup : (aged.store.missing ⟨0⟩ spaceKey.chain).Nodup := by decide
  obtain ⟨t, s', hrun, hnearest, hown⟩ := reachable_aged.prefabType_honours spaceKey
  have hhonours := hown le_rfl hissued hbounded
  exact ⟨reachable_aged, hissued, List.not_mem_nil, hbounded, hnodup, rfl, t, s', hrun,
    hhonours, (hnearest hbounded hnodup).1 hhonours _ _ rfl⟩

/-- The key of another catalog is answered with the type of the own key. -/
theorem exists_key_not_honoured :
    provided.Reachable ⟨0⟩ Issued ∧ foreignKey.Bounded ∧
      ∃ t s', (prefabType ⟨0⟩ foreignKey).run provided.store = (.ok t, s') ∧
        ¬s'.Honours foreignKey t := by
  refine ⟨reachable_provided, fun l hl => ?_, ⟨0⟩, provided.store, rfl, fun hhonours => ?_⟩
  · rw [List.mem_singleton.1 hl]
    exact bounded_plainLevel "x" 5
  · exact absurd (SameChain.totalCount_eq hhonours) (by decide)

end Usage

end Records
