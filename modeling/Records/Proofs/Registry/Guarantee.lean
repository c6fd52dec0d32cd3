import Records.Proofs.Computation.Trace
import Records.Proofs.Registry.Plan

/-!
# What operations of a registry do to a store

All that the operations of a registry do is to develop catalogs, to lay out types and to add
instances. A relation between stores that permits this much is kept to by every operation,
whichever registry it is run with, and whatever types and keys it is given.

## Main definitions

* `PrefabCatalog.Develops`: what an operation makes of a catalog.
* `Store.Permits`: a relation permits what operations do.
* `StoreM.Along`: an operation keeps to a relation, wherever it starts.

## Main statements

* `along_prefabType`, `along_prefabInstance`: types that are asked for by a key, and literals.
* `ensures_prepare`, `ensures_define`: the plan of a definition, and all of it.
-/

namespace Records

/-! ### Catalogs -/

namespace PrefabCatalog

/-- What an operation makes of a catalog in a store with a number of types: no key and no type is
forgotten, the keys form a table if they did, and types that are registered are there. -/
structure Develops (size : Nat) (c c' : PrefabCatalog) : Prop where
  extends_catalog : c.Extends c'
  interned : c.Interned → c'.Interned
  registered : ∀ k t, c'.typeFor? k = some t → c.typeFor? k = some t ∨ t.index < size

variable (c : PrefabCatalog) {size : Nat}

lemma extends_intern (level : PrefabLevel) (super : Option PrefabKey) :
    c.Extends (c.intern level super).2 := by
  refine ⟨fun k hk => ?_, fun k _ t ht => ?_⟩
  · cases hf : c.find? level super with
    | some _ =>
      rw [intern_of_find? hf]
      exact hk
    | none =>
      rw [intern_of_find?_eq_none hf]
      exact List.mem_cons_of_mem _ hk
  · rw [typeFor?, types_intern]
    exact ht

lemma extends_internChain (levels : List PrefabLevel) : c.Extends (c.internChain levels).2 := by
  induction levels with
  | nil => exact Extends.refl c
  | cons level supers ih =>
    rw [internChain_cons, internLevels]
    exact ih.trans (extends_intern _ level _)

lemma develops_internChain {levels : List PrefabLevel} (hl : ∀ l ∈ levels, l.Bounded) :
    c.Develops size (c.internChain levels).2 where
  extends_catalog := c.extends_internChain levels
  interned h := (h.internChain hl).1.interned
  registered k t ht := by
    rw [typeFor?, types_internChain] at ht
    exact .inl ht

lemma develops_internLevels {level : PrefabLevel} {supers : List PrefabLevel}
    (hl : level.Bounded) (hs : ∀ l ∈ supers, l.Bounded) :
    c.Develops size (c.internLevels level supers).2 :=
  c.develops_internChain (List.forall_mem_cons.2 ⟨hl, hs⟩)

lemma develops_internDatum {d : PrefabDatum} (hd : ∀ l ∈ d.supers, l.Bounded) (total : Nat) :
    c.Develops size (c.internDatum d total).2 := by
  cases hl : d.levelFor? ((c.internChain d.supers).1.elim 0 PrefabKey.totalCount) total with
  | none =>
    simp only [internDatum, hl]
    exact c.develops_internChain hd
  | some level =>
    simp only [internDatum, hl]
    exact c.develops_internLevels (PrefabDatum.bounded_of_levelFor? hl) hd

/-- No key loses its type when another one is given one. -/
lemma develops_register (k : PrefabKey) {t : TypeId} (ht : t.index < size) :
    c.Develops size (c.register k t).2 := by
  unfold register
  cases hk : c.typeFor? k with
  | some _ => exact ⟨Extends.refl c, id, fun _ _ hu => .inl hu⟩
  | none =>
    refine ⟨⟨fun _ hk' => hk', fun k' _ u hu => ?_⟩,
      fun h => ⟨h.number_lt, h.number_inj, h.super_mem, h.level_inj, h.bounded⟩, fun k' u hu => ?_⟩
    · have hne : k.id.number ≠ k'.id.number := by
        intro hnumber
        rw [typeFor?, hnumber] at hk
        rw [typeFor?, hk] at hu
        cases hu
      simpa [typeFor?, hne] using hu
    · by_cases hnumber : k.id.number = k'.id.number
      · obtain rfl : t = u := by simpa [typeFor?, hnumber] using hu
        exact .inr ht
      · exact .inl (by simpa [typeFor?, hnumber] using hu)

end PrefabCatalog

/-! ### Relations that operations keep to -/

/-- A relation between stores permits to develop a catalog, to lay out a type and to add an
instance. -/
structure Store.Permits (R : Store → Store → Prop) : Prop where
  catalog : ∀ s r c, (s.catalog r).Develops s.types.size c → R s (s.updateCatalog r c)
  type : ∀ s d type, s.layOut d = .ok type → R s { s with types := s.types.push type }
  record : ∀ s i, R s { s with instances := s.instances.push i }

/-- Wherever it starts, an operation moves the store along a relation. -/
abbrev StoreM.Along {α : Type} (R : Store → Store → Prop) (m : StoreM α) : Prop :=
  ∀ s, m.Ensures R (fun _ _ => True) s

variable {R : Store → Store → Prop} {α β : Type}

namespace StoreM.Along

lemma get_bind {f : Store → StoreM α} (h : ∀ s, (f s).Along R) :
    (get >>= f : StoreM α).Along R := fun s => StoreM.ensures_get_bind (h s s)

variable [IsPreorder Store R]

lemma pure (a : α) : (Pure.pure a : StoreM α).Along R := fun _ => StoreM.ensures_pure trivial

lemma raise (c : Condition) : (Records.raise c : StoreM α).Along R := StoreM.ensures_raise c

lemma bind {m : StoreM α} {f : α → StoreM β} (h : m.Along R) (hf : ∀ a, (f a).Along R) :
    (m >>= f).Along R := fun s => (h s).bind fun a s' _ _ => hf a s'

end StoreM.Along

section

variable (hR : Store.Permits R) (r : RegistryId)

include hR

lemma along_withCatalog {f : PrefabCatalog → α × PrefabCatalog}
    (hf : ∀ size (c : PrefabCatalog), c.Develops size (f c).2) : (withCatalog r f).Along R :=
  fun s => ⟨hR.catalog s r _ (hf _ _), fun _ _ => trivial⟩

/-- A type is registered that is there. -/
lemma ensures_registerType (k : PrefabKey) {t : TypeId} {s : Store}
    (ht : t.index < s.types.size) :
    (registerType r k t).Ensures R (fun _ _ => True) s :=
  ⟨hR.catalog s r _ ((s.catalog r).develops_register k ht), fun _ _ => trivial⟩

lemma along_keyOfType (t : TypeId) : (keyOfType r t).Along R :=
  .get_bind fun s => along_withCatalog hR r fun _ c =>
    c.develops_internLevels (s.type t).bounded_prefabLevel (bounded_inheritedLevels s _)

lemma along_keyOfDeclaration (d : Declaration) : (keyOfDeclaration r d).Along R :=
  .get_bind fun s => along_withCatalog hR r fun _ c =>
    c.develops_internLevels d.bounded_prefabLevel (bounded_inheritedLevels s _)

variable [IsPreorder Store R]

/-- A declared type is laid out behind all others. -/
lemma ensures_declare (d : Declaration) (s : Store) :
    (declare d).Ensures R (fun t s' => t = ⟨s.types.size⟩ ∧ ∃ type, s.layOut d = .ok type ∧
      s' = { s with types := s.types.push type }) s := by
  rw [StoreM.Ensures, run_declare]
  cases hl : s.layOut d with
  | error e => exact ⟨refl_of R s, fun t ht => by cases ht⟩
  | ok type =>
    refine ⟨hR.type s d type hl, ?_⟩
    rintro _ ⟨⟩
    exact ⟨rfl, type, rfl, rfl⟩

lemma along_declare (d : Declaration) : (declare d).Along R :=
  fun s => (ensures_declare hR d s).mono fun _ _ _ _ => trivial

/-- A declared type is registered. -/
lemma along_declare_register (k : PrefabKey) (d : Declaration) :
    (declare d >>= registerType r k).Along R := by
  refine fun s => (ensures_declare hR d s).bind ?_
  rintro t _ - ⟨rfl, type, -, rfl⟩
  exact ensures_registerType hR r k (by simp)

lemma along_newInstance (t : TypeId) (values : List Value) : (newInstance t values).Along R := by
  intro s
  rw [StoreM.Ensures, run_newInstance]
  refine ⟨?_, fun _ _ => trivial⟩
  split
  · exact hR.record s _
  · exact refl_of R s

lemma along_keyOfDatum (datum : Value) (total : Nat) : (keyOfDatum r datum total).Along R := by
  have hrefuse : (refuseDatum datum : StoreM PrefabKey).Along R := .get_bind fun _ => .raise _
  unfold keyOfDatum
  cases hd : PrefabDatum.parse? datum with
  | none => exact hrefuse
  | some d =>
    refine .bind (along_withCatalog hR r fun _ c =>
      c.develops_internDatum (PrefabDatum.bounded_of_parse? hd) total) fun k? => ?_
    cases k? with
    | none => exact hrefuse
    | some k => exact .pure k

lemma along_ensureType (k : PrefabKey) {super : StoreM (Option TypeId)} (hsuper : super.Along R) :
    (ensureType r k super).Along R := by
  refine .get_bind fun s => ?_
  cases s.typeFor? r k with
  | some t => exact .pure t
  | none =>
    exact hsuper.bind fun u => along_declare_register hR r k _

lemma along_prefabType (k : PrefabKey) : (prefabType r k).Along R := by
  obtain ⟨id, level, supers⟩ := k
  unfold prefabType
  induction supers generalizing id level with
  | nil => exact along_ensureType hR r _ (.pure none)
  | cons head rest ih =>
    refine along_ensureType hR r _ ?_
    rw [map_eq_pure_bind]
    exact (ih head.1 head.2).bind fun t => .pure (some t)

lemma along_prefabTypeOfDatum (datum : Value) (total : Nat) :
    (prefabTypeOfDatum r datum total).Along R :=
  (along_keyOfDatum hR r datum total).bind fun k => along_prefabType hR r k

lemma along_prefabInstance (datum : Value) (values : List Value) :
    (prefabInstance r datum values).Along R := by
  refine (along_keyOfDatum hR r datum values.length).bind fun k => ?_
  split
  · exact (along_prefabType hR r k).bind fun t => along_newInstance hR t values
  · exact .raise _

lemma along_prefabTypeOfDeclaration (d : Declaration) :
    (prefabTypeOfDeclaration r d).Along R := by
  refine .get_bind fun s => ?_
  cases s.prefabRestriction? d with
  | some what => exact .raise _
  | none =>
    refine (along_keyOfDeclaration hR r d).bind fun k => .get_bind fun s => ?_
    cases s.typeFor? r k with
    | some t => exact .pure t
    | none => exact along_declare_register hR r k d

/-- Making a plan is no more than such an operation. -/
lemma ensures_prepare (d : Declaration) (s : Store) :
    (prepare r d).Ensures R (fun _ _ => True) s := by
  unfold prepare
  split
  · refine .bind (.ofStoreM (along_prefabTypeOfDeclaration hR r d s)) fun t s _ => ?_
    refine .bind (.ofStoreM (StoreM.ensures_get s)) fun s₁ s _ => ?_
    split
    · split
      · trivial
      · exact .bind (.ofStoreM (along_declare hR d s)) fun _ _ _ => trivial
    · trivial
  · exact .bind (.ofStoreM (along_declare hR d s)) fun _ _ _ => trivial

end

/-! ### Definitions -/

/-- The type that properties are attached to. -/
def Plan.target? : Plan → Option TypeId
  | .keep _ => none
  | .attach t => some t
  | .compare _ candidate => some candidate

/-- Beside that, definitions publish. -/
lemma Plan.ensures_conclude [IsPreorder Store R] (plan : Plan) {d : Declaration} {a : Attached}
    (hpublish : ∀ s t, plan.target? = some t → R s (s.publish t (s.resolve t a))) (s : Store) :
    (plan.conclude d a).Ensures R (fun _ _ => True) s := by
  have hmodify : ∀ s t, plan.target? = some t →
      (modifyType t (·.publish (s.resolve t a))).Ensures R (fun _ _ => True) s :=
    fun s t ht => ⟨hpublish s t ht, fun _ _ => trivial⟩
  cases plan with
  | keep t => trivial
  | attach t =>
    refine .bind (.ofStoreM (StoreM.ensures_get s)) ?_
    rintro _ _ ⟨rfl, rfl⟩
    exact .bind (.ofStoreM (hmodify _ t rfl)) fun _ _ _ => trivial
  | compare t c =>
    refine .bind (.ofStoreM (StoreM.ensures_get s)) ?_
    rintro _ _ ⟨rfl, rfl⟩
    refine .bind (.ofStoreM (hmodify _ c rfl)) fun _ s₁ _ => ?_
    refine .bind (.ofStoreM (StoreM.ensures_get s₁)) fun s₂ _ _ => ?_
    split
    · trivial
    · exact .ofStoreM (StoreM.ensures_raise _ _)

/-- Attaching only reads, and publishing is the last that a definition does. -/
lemma Plan.ensures_rest [IsPreorder Store R] (plan : Plan) (d : Declaration)
    (hpublish : ∀ s t a, plan.target? = some t → R s (s.publish t (s.resolve t a))) (s : Store) :
    ((plan.attachment d).bind fun a => (plan.conclude d a).bind fun c =>
      .done (definition c.type)).Ensures R (fun _ _ => True) s := by
  refine .bind (plan.onlyReads_attachment d s).ensures fun a s _ => ?_
  refine .bind (plan.ensures_conclude (fun s t ht => hpublish s t a ht) s) fun _ _ _ => ?_
  trivial

/-- A relation that permits what other operations do, and publishing, is kept to by definitions. -/
theorem ensures_define [IsPreorder Store R] (hR : Store.Permits R)
    (hpublish : ∀ s t resolution, R s (s.publish t resolution)) (r : RegistryId) (d : Declaration)
    (s : Store) : (define r d).Ensures R (fun _ _ => True) s := by
  rw [define_eq_phases]
  refine .bind (ensures_prepare hR r d s) fun plan s _ => ?_
  exact plan.ensures_rest d (fun s t a _ => hpublish s t _) s

end Records
