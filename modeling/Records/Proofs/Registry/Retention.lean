import Records.Proofs.Attachment.Replay
import Records.Proofs.Registry.Failure
import Records.Proofs.Registry.Guarantee

/-!
# What later states of a store retain

Whatever is done to a store, types keep their layouts and their resolutions, properties stay what
they are, and a registry forgets no key and no type. This is what a definition may rely on while
it waits for a call, and what it guarantees to others, whichever registry they are run with. A type
that is made for a comparison may be relied on to stay as it is.

## Main definitions

* `Store.Retains`: later states of a store, of a registry in it and of the properties.
* `Store.Tabled`: the keys of a registry form a table, and its types are there.
* `Store.Spares`: later states in which a certain type is what it was.

## Main statements

* `ensures_define_retains`: what a definition retains.
-/

namespace Records

variable {r : RegistryId} {s s' : Store} {t c : TypeId} {k : PrefabKey}

/-! ### Retaining -/

/-- Later states of a store, of a registry in it and of the properties. -/
structure Store.Retains (r : RegistryId) (s s' : Store) : Prop where
  evolves : s.Evolves s'
  catalog : (s.catalog r).Extends (s'.catalog r)
  properties : s.KeepsProperties s'

instance (r : RegistryId) : IsPreorder Store (Store.Retains r) where
  refl s := ⟨.refl s, .refl _, refl_of Store.KeepsProperties s⟩
  trans _ _ _ h h' := ⟨h.evolves.trans h'.evolves, h.catalog.trans h'.catalog,
    trans_of Store.KeepsProperties h.properties h'.properties⟩

/-- An update of another catalog, or of a registry that is not there, changes nothing. -/
lemma Store.catalog_updateCatalog_cases (s : Store) (r r' : RegistryId) (c : PrefabCatalog) :
    (s.updateCatalog r' c).catalog r = s.catalog r ∨
      r' = r ∧ (s.updateCatalog r' c).catalog r = c := by
  by_cases hlt : r'.index < s.registries.size
  · by_cases hr : r' = r
    · subst hr
      exact .inr ⟨rfl, catalog_updateCatalog hlt c⟩
    · have hne : r'.index ≠ r.index := fun h => hr (by cases r; cases r'; cases h; rfl)
      refine .inl ?_
      simp [updateCatalog, catalog, registry, Array.getD_eq_getD_getElem?, Array.getElem?_modify,
        hne]
  · refine .inl ?_
    have hsame : s.registries.modify r'.index (fun g => { g with catalog := c }) =
        s.registries := by
      refine Array.ext (by simp) fun i hi hi' => ?_
      rw [Array.getElem_modify, if_neg]
      rintro rfl
      exact hlt hi'
    rw [updateCatalog, hsame]

lemma Store.extends_updateCatalog {r' : RegistryId} {c : PrefabCatalog}
    (h : (s.catalog r').Extends c) :
    (s.catalog r).Extends ((s.updateCatalog r' c).catalog r) := by
  rcases s.catalog_updateCatalog_cases r r' c with hsame | ⟨rfl, hcatalog⟩
  · rw [hsame]
    exact .refl _
  · rw [hcatalog]
    exact h

lemma Store.Enlarges.retains (h : s.Enlarges s') (hc : (s.catalog r).Extends (s'.catalog r))
    (hp : s'.properties = s.properties) : s.Retains r s' := by
  refine ⟨h.evolves, hc, Nat.le_of_eq (by rw [hp]), fun p _ => ?_⟩
  rw [property, hp, property]

lemma permits_retains (r : RegistryId) : Store.Permits (Store.Retains r) where
  catalog s r' c hc := by
    have h : s.Enlarges (s.updateCatalog r' c) := .of_types_eq rfl
    exact h.retains (Store.extends_updateCatalog hc.extends_catalog) rfl
  type s _ type _ := (Store.Enlarges.push_type s type).retains (.refl _) rfl
  record s i := by
    have h : s.Enlarges { s with instances := s.instances.push i } := .of_types_eq rfl
    exact h.retains (.refl _) rfl

lemma Store.retains_publish (s : Store) (t : TypeId) (resolution : Resolution) :
    s.Retains r (s.publish t resolution) :=
  ⟨.publish s t resolution, .refl _, Nat.le_refl _, fun _ _ => rfl⟩

/-- Whatever is defined, with whichever registry, and whatever happens in the calls: the
definition itself retains what there is. -/
theorem ensures_define_retains (r r' : RegistryId) (d : Declaration) (s : Store) :
    (define r' d).Ensures (Store.Retains r) (fun _ _ => True) s :=
  ensures_define (permits_retains r) Store.retains_publish r' d s

/-! ### Tables -/

/-- The registry is there, its keys form a table, and the types it has registered are there. -/
structure Store.Tabled (s : Store) (r : RegistryId) : Prop extends s.HasTable r where
  interned : (s.catalog r).Interned

lemma Store.Coherent.tabled (h : s.Coherent r) : s.Tabled r := ⟨h.hasTable, h.catalog.interned⟩

/-! ### Sparing -/

/-- Later states of a store in which a certain type is what it was. -/
structure Store.Spares (c : TypeId) (s s' : Store) : Prop where
  evolves : s.Evolves s'
  type : c.index < s.types.size → s'.type c = s.type c

instance (c : TypeId) : IsPreorder Store (Store.Spares c) where
  refl s := ⟨.refl s, fun _ => rfl⟩
  trans _ _ _ h h' := ⟨h.evolves.trans h'.evolves, fun hlt => by
    rw [h'.type (h.evolves.lt hlt), h.type hlt]⟩

/-! ### Finding the type of a declaration -/

/-- The store once the key of a declaration is interned. -/
def Store.internDeclared (s : Store) (r : RegistryId) (d : Declaration) : Store :=
  s.updateCatalog r
    ((s.catalog r).internLevels d.prefabLevel (s.inheritedLevels d.superType)).2

@[simp] lemma Store.typeFor?_internDeclared (s : Store) (r : RegistryId) (d : Declaration)
    (k : PrefabKey) : (s.internDeclared r d).typeFor? r k = s.typeFor? r k := by
  show ((s.updateCatalog r _).catalog r).typeFor? k = (s.catalog r).typeFor? k
  rcases s.catalog_updateCatalog_cases r r
    ((s.catalog r).internLevels d.prefabLevel (s.inheritedLevels d.superType)).2 with
    hsame | ⟨-, hcatalog⟩
  · rw [hsame]
  · have htypes : ((s.catalog r).internLevels d.prefabLevel
        (s.inheritedLevels d.superType)).2.types = (s.catalog r).types :=
      PrefabCatalog.types_internChain (s.catalog r) (s.declaredLevels d)
    rw [hcatalog, PrefabCatalog.typeFor?, htypes, PrefabCatalog.typeFor?]

lemma run_keyOfDeclaration (r : RegistryId) (d : Declaration) (s : Store) :
    (keyOfDeclaration r d).run s = (.ok (s.declaredKey r d), s.internDeclared r d) := rfl

/-- The registered type is found; if there is none, a new one is registered. -/
lemma run_prefabTypeOfDeclaration (r : RegistryId) (d : Declaration) (s : Store) :
    (prefabTypeOfDeclaration r d).run s =
      match s.prefabRestriction? d with
      | some what => (.error (.condition (.prefabRestriction d.name.name what)), s)
      | none =>
        match s.typeFor? r (s.declaredKey r d) with
        | some t => (.ok t, s.internDeclared r d)
        | none =>
          (declare d >>= registerType r (s.declaredKey r d)).run (s.internDeclared r d) := by
  rw [prefabTypeOfDeclaration, StoreM.run_bind]
  simp only [StoreM.run_get]
  cases s.prefabRestriction? d with
  | some what => rfl
  | none =>
    simp only [StoreM.run_bind, run_keyOfDeclaration, StoreM.run_get,
      Store.typeFor?_internDeclared]
    cases s.typeFor? r (s.declaredKey r d) with
    | some t => rfl
    | none => rw [StoreM.run_bind]

end Records
