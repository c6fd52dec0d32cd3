import Records.Proofs.Prefab.History
import Records.Proofs.Registry.Guarantee
import Records.Proofs.Registry.Provision

/-!
# The ledger of a registry

A catalog numbers the keys it issues, and goes on counting when it is reset. As long as it is only
handed keys that it issued itself, before a reset or after it, a number stands for one key, and the
type that is registered under the number has the structure of that key.

## Main definitions

* `PrefabCatalog.Issues`: the keys that a catalog has issued, with their numbers.
* `Store.Ledger`: the keys that a registry has issued, with their types.
* `Store.Keeps`: what operations of the registry make of its ledger.

## Main statements

* `Store.Ledger.updateCatalog`, `Store.Ledger.enroll`: issuing keys and registering types.
* `Store.Provides.ledger`: providing the type of an issued key.
-/

namespace Records

/-! ### Issued keys -/

namespace PrefabCatalog

/-- The keys that a catalog has issued up to now, those from before a reset included. -/
structure Issues (c : PrefabCatalog) (issued : List PrefabKey) : Prop where
  mem : ∀ k ∈ c.keys, k ∈ issued
  super_mem : ∀ k ∈ issued, ∀ k', k.superKey? = some k' → k' ∈ issued
  number_lt : ∀ k ∈ issued, k.id.number < c.issued
  number_inj : ∀ k ∈ issued, ∀ k' ∈ issued, k.id.number = k'.id.number → k = k'
  types_lt : ∀ k t, c.typeFor? k = some t → k.id.number < c.issued

/-- A catalog after further keys were issued. -/
structure IssuesMore (issued : List PrefabKey) (c c' : PrefabCatalog) : Prop where
  issues : c'.Issues (c'.keys ++ issued)
  keys : ∀ k ∈ c.keys, k ∈ c'.keys
  types : c'.types = c.types
  new : ∀ k ∈ c'.keys, k ∈ issued ∨ c.issued ≤ k.id.number
  issued_le : c.issued ≤ c'.issued

variable {c c' c'' : PrefabCatalog} {issued issued' : List PrefabKey} {k : PrefabKey}

/-- The order in which keys are listed does not matter. -/
lemma Issues.of_mem_iff (h : c.Issues issued) (hmem : ∀ k, k ∈ issued' ↔ k ∈ issued) :
    c.Issues issued' where
  mem k hk := (hmem k).2 (h.mem k hk)
  super_mem k hk k' hk' := (hmem k').2 (h.super_mem k ((hmem k).1 hk) k' hk')
  number_lt k hk := h.number_lt k ((hmem k).1 hk)
  number_inj k hk k' hk' := h.number_inj k ((hmem k).1 hk) k' ((hmem k').1 hk')
  types_lt := h.types_lt

namespace Issues

/-- The keys that are known are among those that were issued. -/
lemma mem_keys_append (h : c.Issues issued) : k ∈ c.keys ++ issued ↔ k ∈ issued := by
  rw [List.mem_append]
  exact or_iff_right_of_imp (h.mem k)

lemma owns (h : c.Issues issued) (hk : k ∈ issued) : c.Owns k :=
  ⟨h.number_lt k hk, fun u hu hn => h.number_inj u (h.mem u hu) k hk hn⟩

lemma numbered (h : c.Issues issued) : c.Numbered :=
  ⟨fun k hk => h.owns (h.mem k hk),
    fun k hk k' hk' => h.owns (h.super_mem k (h.mem k hk) k' hk')⟩

lemma reset (h : c.Issues issued) : c.reset.Issues issued where
  mem := nofun
  super_mem := h.super_mem
  number_lt := h.number_lt
  number_inj := h.number_inj
  types_lt := nofun

lemma register (h : c.Issues issued) (hk : k ∈ issued) (t : TypeId) :
    (c.register k t).2.Issues issued := by
  unfold PrefabCatalog.register
  cases hregistered : c.typeFor? k with
  | some _ => exact h
  | none =>
    refine ⟨h.mem, h.super_mem, h.number_lt, h.number_inj, fun k' u hu => ?_⟩
    by_cases hnumber : k.id.number = k'.id.number
    · rw [← hnumber]
      exact h.number_lt k hk
    · exact h.types_lt k' u (by simpa [typeFor?, hnumber] using hu)

lemma issuesMore_refl (h : c.Issues issued) : IssuesMore issued c c where
  issues := h.of_mem_iff fun _ => h.mem_keys_append
  keys _ hk := hk
  types := rfl
  new k hk := .inl (h.mem k hk)
  issued_le := Nat.le_refl _

/-- A level is issued on top of a key that was issued. -/
lemma intern (h : c.Issues issued) (level : PrefabLevel) {super : Option PrefabKey}
    (hsuper : ∀ k ∈ super, k ∈ issued) : IssuesMore issued c (c.intern level super).2 := by
  cases hf : c.find? level super with
  | some k =>
    rw [intern_of_find? hf]
    exact h.issuesMore_refl
  | none =>
    rw [intern_of_find?_eq_none hf]
    have hmem : ∀ k, k ∈ (c.next level super :: c.keys) ++ issued ↔
        k = c.next level super ∨ k ∈ issued := by
      intro k
      rw [List.cons_append, List.mem_cons]
      exact or_congr_right h.mem_keys_append
    have hfresh : ∀ k ∈ issued, k.id.number ≠ (c.next level super).id.number :=
      fun k hk => Nat.ne_of_lt (h.number_lt k hk)
    refine ⟨⟨fun k hk => List.mem_append_left _ hk, fun k hk k' hk' => ?_, fun k hk => ?_,
      fun k hk k' hk' hn => ?_, fun k t ht => Nat.lt_succ_of_lt (h.types_lt k t ht)⟩,
      fun k hk => List.mem_cons_of_mem _ hk, rfl, fun k hk => ?_, Nat.le_succ _⟩
    · refine (hmem k').2 (.inr ?_)
      rcases (hmem k).1 hk with rfl | hk
      · rw [superKey?_next] at hk'
        exact hsuper k' hk'
      · exact h.super_mem k hk k' hk'
    · rcases (hmem k).1 hk with rfl | hk
      · exact Nat.lt_succ_self _
      · exact Nat.lt_succ_of_lt (h.number_lt k hk)
    · rcases (hmem k).1 hk with rfl | hk <;> rcases (hmem k').1 hk' with rfl | hk'
      · rfl
      · exact absurd hn.symm (hfresh k' hk')
      · exact absurd hn (hfresh k hk)
      · exact h.number_inj k hk k' hk' hn
    · rcases List.mem_cons.1 hk with rfl | hk
      · exact .inr (Nat.le_refl _)
      · exact .inl (h.mem k hk)

end Issues

lemma IssuesMore.trans (h : IssuesMore issued c c') (h' : IssuesMore (c'.keys ++ issued) c' c'') :
    IssuesMore issued c c'' where
  issues := h'.issues.of_mem_iff fun k => by
    rw [List.mem_append, List.mem_append, List.mem_append, ← or_assoc]
    exact or_congr_left (or_iff_left_of_imp (h'.keys k)).symm
  keys k hk := h'.keys k (h.keys k hk)
  types := h'.types.trans h.types
  new k hk := by
    rcases h'.new k hk with hk | hle
    · rcases List.mem_append.1 hk with hk | hk
      · exact h.new k hk
      · exact .inl hk
    · exact .inr (Nat.le_trans h.issued_le hle)
  issued_le := Nat.le_trans h.issued_le h'.issued_le

/-- The key that is answered is known then. -/
lemma intern_mem (c : PrefabCatalog) (level : PrefabLevel) (super : Option PrefabKey) :
    (c.intern level super).1 ∈ (c.intern level super).2.keys :=
  (of_find?_eq_some (find?_intern c level super)).1

lemma internChain_mem (c : PrefabCatalog) (levels : List PrefabLevel) :
    ∀ k ∈ (c.internChain levels).1, k ∈ (c.internChain levels).2.keys := by
  cases levels with
  | nil => exact nofun
  | cons level supers =>
    rintro k ⟨⟩
    exact intern_mem _ level _

lemma internDatum_mem (c : PrefabCatalog) (d : PrefabDatum) (total : Nat) :
    ∀ k ∈ (c.internDatum d total).1, k ∈ (c.internDatum d total).2.keys := by
  unfold internDatum
  cases hl : d.levelFor? ((c.internChain d.supers).1.elim 0 PrefabKey.totalCount) total with
  | none =>
    simp only [hl]
    exact nofun
  | some level =>
    simp only [hl]
    rintro k ⟨⟩
    exact intern_mem _ level _

namespace Issues

lemma internChain (h : c.Issues issued) (levels : List PrefabLevel) :
    IssuesMore issued c (c.internChain levels).2 := by
  induction levels with
  | nil => exact h.issuesMore_refl
  | cons level supers ih =>
    refine ih.trans (ih.issues.intern level fun k hk => ?_)
    exact List.mem_append_left _ (c.internChain_mem supers k hk)

lemma internDatum (h : c.Issues issued) (d : PrefabDatum) (total : Nat) :
    IssuesMore issued c (c.internDatum d total).2 := by
  rw [h.numbered.internDatum_eq]
  cases d.levelFor? (PrefabLevel.totalCount d.supers) total with
  | none => exact h.internChain d.supers
  | some level => exact h.internChain (level :: d.supers)

end Issues

end PrefabCatalog

/-! ### Types under numbers -/

/-- What holds of a type that a registry has registered, whatever its structure. -/
structure RecordType.Registrable (t : RecordType) : Prop where
  prefabType : t.isPrefab
  guard : t.guard = none
  immutables : ∀ i ∈ t.immutables, i < t.initCount

variable {r : RegistryId} {s s' : Store} {issued issued' : List PrefabKey} {k k' : PrefabKey}
  {t u : TypeId} {type : RecordType} {d : Declaration}

lemma RecordType.Registrable.of_layout (h : type.Registrable) {other : RecordType}
    (hlayout : other.layout = type.layout) : other.Registrable where
  prefabType := (congrArg isPrefab hlayout).trans h.prefabType
  guard := (congrArg RecordType.guard hlayout).trans h.guard
  immutables i hi := by
    rw [eq_of_layout (·.initCount) (fun _ => rfl) hlayout]
    exact h.immutables i (eq_of_layout (fun t => t.immutables) (fun _ => rfl) hlayout ▸ hi)

/-- The keys that a registry has issued, with the types that are registered under their numbers. -/
structure Store.Ledger (r : RegistryId) (s : Store) (issued : List PrefabKey) : Prop
    extends s.Founded r where
  issues : (s.catalog r).Issues issued
  registrable : ∀ k t, s.typeFor? r k = some t → (s.type t).Registrable
  honours : ∀ k ∈ issued, k.Bounded → ∀ t, s.typeFor? r k = some t → s.Honours k t

namespace Store

/-- Other changes of a store leave a registry founded. -/
lemma Founded.of_evolves (h : s.Founded r) (he : s.Evolves s') (ho : s'.Ordered)
    (hr : s.registries.size ≤ s'.registries.size) (hc : s'.catalog r = s.catalog r) :
    s'.Founded r where
  exists_registry := Nat.lt_of_lt_of_le h.exists_registry hr
  lt_of_typeFor? k t ht := by
    refine he.lt (h.lt_of_typeFor? k t ?_)
    rw [← ht, Store.typeFor?, Store.typeFor?]
    exact congrArg (·.typeFor? k) hc.symm
  ordered := ho

/-- No type is registered behind a reset. -/
lemma typeFor?_reset (hr : r.index < s.registries.size) (k : PrefabKey) :
    (s.updateCatalog r (s.catalog r).reset).typeFor? r k = none := by
  show ((s.updateCatalog r (s.catalog r).reset).catalog r).typeFor? k = none
  rw [catalog_updateCatalog hr]
  rfl

lemma Founded.reset (h : s.Founded r) : (s.updateCatalog r (s.catalog r).reset).Founded r where
  exists_registry := by simpa [Store.updateCatalog] using h.exists_registry
  lt_of_typeFor? k t ht := by
    rw [typeFor?_reset h.exists_registry] at ht
    cases ht
  ordered := h.ordered

namespace Ledger

lemma of_mem_iff (h : s.Ledger r issued) (hmem : ∀ k, k ∈ issued' ↔ k ∈ issued) :
    s.Ledger r issued' where
  toFounded := h.toFounded
  issues := h.issues.of_mem_iff hmem
  registrable := h.registrable
  honours k hk := h.honours k ((hmem k).1 hk)

/-- The keys that are known may be listed as issued once more. -/
lemma append_keys (h : s.Ledger r issued) : s.Ledger r ((s.catalog r).keys ++ issued) :=
  h.of_mem_iff fun _ => h.issues.mem_keys_append

lemma of_evolves (h : s.Ledger r issued) (he : s.Evolves s') (ho : s'.Ordered)
    (hr : s.registries.size ≤ s'.registries.size) (hc : s'.catalog r = s.catalog r) :
    s'.Ledger r issued := by
  have htype : ∀ k t, s'.typeFor? r k = some t → s.typeFor? r k = some t := by
    intro k t ht
    rw [← ht, Store.typeFor?, Store.typeFor?]
    exact congrArg (·.typeFor? k) hc.symm
  refine ⟨h.toFounded.of_evolves he ho hr hc, ?_, fun k t ht => ?_, fun k hk hb t ht => ?_⟩
  · rw [hc]
    exact h.issues
  · have ht := htype k t ht
    exact (h.registrable k t ht).of_layout (he.layout t (h.lt_of_typeFor? k t ht))
  · have ht := htype k t ht
    exact (he.honours_iff ho (h.lt_of_typeFor? k t ht)).2 (h.honours k hk hb t ht)

/-- Keys are issued. -/
lemma updateCatalog (h : s.Ledger r issued) {c : PrefabCatalog}
    (hc : PrefabCatalog.IssuesMore issued (s.catalog r) c) :
    (s.updateCatalog r c).Ledger r (c.keys ++ issued) := by
  have htype := (SameTable.updateCatalog h.toHasTable hc.types).typeFor?
  refine ⟨h.toFounded.updateCatalog hc.types, ?_, fun k t ht => ?_, fun k hk hb t ht => ?_⟩
  · rw [catalog_updateCatalog h.exists_registry]
    exact hc.issues
  · rw [htype] at ht
    exact h.registrable k t ht
  · rw [htype] at ht
    have hold : k ∈ issued := by
      rcases List.mem_append.1 hk with hk | hk
      · refine (hc.new k hk).resolve_right fun hle => ?_
        exact absurd (h.issues.types_lt k t ht) (Nat.not_lt.2 hle)
      · exact hk
    have he : s.Enlarges (s.updateCatalog r c) := .of_types_eq rfl
    exact (he.evolves.honours_iff h.ordered (h.lt_of_typeFor? k t ht)).2 (h.honours k hold hb t ht)

lemma reset (h : s.Ledger r issued) :
    (s.updateCatalog r (s.catalog r).reset).Ledger r issued := by
  have hnone := typeFor?_reset h.exists_registry
  refine ⟨h.toFounded.reset, ?_, fun k t ht => ?_, fun k _ _ t ht => ?_⟩
  · rw [catalog_updateCatalog h.exists_registry]
    exact h.issues.reset
  · rw [hnone] at ht
    cases ht
  · rw [hnone] at ht
    cases ht

/-- A type is registered for an issued key, with the structure of the key. -/
lemma enroll (h : s.Ledger r issued) (hk : k ∈ issued) (htype : type.Registrable)
    (hsuper : ∀ u, type.superType = some u → u.index < s.types.size)
    (hhonours : k.Bounded →
      SameChain k.levels (type.prefabLevel :: s.inheritedLevels type.superType)) :
    (s.enroll r k type).Ledger r issued := by
  have hfounded := h.toFounded.enroll k hsuper
  have he := s.enlarges_enroll r k type
  have hkeep : ∀ k' ∈ issued, k'.Bounded → ∀ t, s.typeFor? r k' = some t →
      (s.enroll r k type).Honours k' t := by
    intro k' hk' hb t ht
    exact (he.evolves.honours_iff hfounded.ordered (h.lt_of_typeFor? k' t ht)).2
      (h.honours k' hk' hb t ht)
  have hregistrable : ∀ k' t, s.typeFor? r k' = some t →
      ((s.enroll r k type).type t).Registrable := by
    intro k' t ht
    rw [he.type t (h.lt_of_typeFor? k' t ht)]
    exact h.registrable k' t ht
  -- a number that has a type now had it before, or it is that of the key
  have hcases : ∀ k' t, (s.enroll r k type).typeFor? r k' = some t →
      s.typeFor? r k' = some t ∨ k'.id.number = k.id.number ∧ t = ⟨s.types.size⟩ := by
    intro k' t ht
    by_cases hnumber : k'.id.number = k.id.number
    · have hsame : ∀ s : Store, s.typeFor? r k' = s.typeFor? r k := fun s => by
        simp only [Store.typeFor?, PrefabCatalog.typeFor?, hnumber]
      rw [hsame, typeFor?_enroll_self h.exists_registry, Option.some.injEq] at ht
      subst ht
      rw [hsame]
      cases hregistered : s.typeFor? r k with
      | some t => exact .inl (congrArg some (registrant_of_some hregistered).symm)
      | none => exact .inr ⟨hnumber, registrant_of_none hregistered⟩
    · rw [typeFor?_enroll_of_ne h.exists_registry hnumber] at ht
      exact .inl ht
  refine ⟨hfounded, ?_, fun k' t ht => ?_, fun k' hk' hb t ht => ?_⟩
  · rw [catalog_enroll h.exists_registry]
    exact h.issues.register hk _
  · rcases hcases k' t ht with ht | ⟨-, rfl⟩
    · exact hregistrable k' t ht
    · rw [type_enroll_self]
      exact htype
  · rcases hcases k' t ht with ht | ⟨hnumber, rfl⟩
    · exact hkeep k' hk' hb t ht
    · obtain rfl := h.issues.number_inj k' hk' k hk hnumber
      rw [Honours, prefabLevels_enroll h.toFounded k' hsuper]
      exact hhonours hb

end Ledger

lemma registrable_of_layOut {l : PrefabLevel} {super : Option TypeId}
    (h : s.layOut (l.declaration super) = .ok type) : type.Registrable := by
  obtain ⟨hrealizes, -⟩ := realizes_of_layOut h
  obtain ⟨_, -, rfl⟩ := layOut_eq_ok_iff.1 h
  refine ⟨hrealizes.prefabType, rfl, fun i hi => ?_⟩
  rw [hrealizes.immutables] at hi
  exact (FieldSet.mem_complement.1 hi).1

/-- The types that a registry provides for an issued key and for its super keys have their
structures. -/
lemma Provides.ledger (h : Provides r k s t s') (hs : s.Ledger r issued) (hk : k ∈ issued) :
    s'.Ledger r issued := by
  induction h with
  | found _ => exact hs
  | @root k s type hnone hroot hl =>
    obtain ⟨hrealizes, hsuperType⟩ := realizes_of_layOut hl
    refine hs.enroll hk (registrable_of_layOut hl) (superType_lt_of_layOut hl nofun) fun hb => ?_
    rw [k.levels_eq, hroot, hsuperType, SameChain.cons_iff]
    exact ⟨hrealizes.same (hb k.level List.mem_cons_self), .refl _⟩
  | @sub k k₁ s s₁ u type hnone hsuperKey hprovides hl ih =>
    obtain ⟨hrealizes, hsuperType⟩ := realizes_of_layOut hl
    have hk₁ := hs.issues.super_mem k hk k₁ hsuperKey
    have hs₁ := ih hs hk₁
    have hu := (hprovides.registered hs.toFounded).2.1
    have hsuper := superType_lt_of_layOut hl fun v hv =>
      Option.some.inj hv ▸ hs₁.lt_of_typeFor? k₁ u hu
    refine hs₁.enroll hk (registrable_of_layOut hl) hsuper fun hb => ?_
    rw [k.levels_eq, hsuperKey, hsuperType, SameChain.cons_iff]
    exact ⟨hrealizes.same (hb k.level List.mem_cons_self),
      hs₁.honours k₁ hk₁ (hb.superKey hsuperKey) u hu⟩

/-- Registering a type issues no key. -/
lemma keys_enroll (hr : r.index < s.registries.size) (k : PrefabKey) (type : RecordType) :
    ((s.enroll r k type).catalog r).keys = (s.catalog r).keys := by
  rw [catalog_enroll hr]
  exact (History.register_keys _ k _).1

lemma Provides.keys_eq (h : Provides r k s t s') (hr : r.index < s.registries.size) :
    (s'.catalog r).keys = (s.catalog r).keys := by
  induction h with
  | found _ => rfl
  | root _ _ _ => exact keys_enroll hr _ _
  | sub _ _ h _ ih => exact (keys_enroll (h.exists_registry hr) _ _).trans (ih hr)

/-! ### What operations make of a ledger -/

/-- A founded registry is founded still, and has issued the keys that it had issued before and
those that it knows now. -/
structure Maintains (r : RegistryId) (s s' : Store) : Prop where
  founded : s'.Founded r
  evolves : s.Evolves s'
  keys : ∀ k ∈ (s.catalog r).keys, k ∈ (s'.catalog r).keys
  ledger : ∀ issued, s.Ledger r issued → s'.Ledger r ((s'.catalog r).keys ++ issued)

/-- From a founded registry its ledger is maintained. -/
def Keeps (r : RegistryId) (s s' : Store) : Prop := s.Founded r → s.Maintains r s'

namespace Keeps

instance (r : RegistryId) : IsPreorder Store (Keeps r) where
  refl s hs := ⟨hs, .refl s, fun _ hk => hk, fun _ h => h.append_keys⟩
  trans s s' s'' h h' hs := by
    obtain ⟨hs', he, hkeys, hledger⟩ := h hs
    obtain ⟨hs'', he', hkeys', hledger'⟩ := h' hs'
    refine ⟨hs'', he.trans he', fun k hk => hkeys' k (hkeys k hk), fun issued h => ?_⟩
    refine (hledger' _ (hledger issued h)).of_mem_iff fun k => ?_
    rw [List.mem_append, List.mem_append, List.mem_append, ← or_assoc]
    exact or_congr_left (or_iff_left_of_imp (hkeys' k)).symm

/-- Whatever happens beside the registry. -/
lemma of_evolves (he : s.Evolves s') (ho : s.Ordered → s'.Ordered)
    (hr : s.registries.size ≤ s'.registries.size) (hc : s'.catalog r = s.catalog r) :
    s.Keeps r s' := by
  intro hs
  have hs' := hs.of_evolves he (ho hs.ordered) hr hc
  refine ⟨hs', he, fun k hk => by rwa [hc], fun issued h => ?_⟩
  exact (h.of_evolves he hs'.ordered hr hc).append_keys

/-- Keys are issued, and no type is registered. -/
lemma updateCatalog {c : PrefabCatalog} (htypes : c.types = (s.catalog r).types)
    (hkeys : ∀ k ∈ (s.catalog r).keys, k ∈ c.keys)
    (hc : ∀ issued, (s.catalog r).Issues issued →
      PrefabCatalog.IssuesMore issued (s.catalog r) c) : s.Keeps r (s.updateCatalog r c) := by
  intro hs
  have he : s.Enlarges (s.updateCatalog r c) := .of_types_eq rfl
  have hcatalog := catalog_updateCatalog hs.exists_registry c
  refine ⟨hs.updateCatalog htypes, he.evolves, fun k hk => ?_, fun issued h => ?_⟩
  · rw [hcatalog]
    exact hkeys k hk
  · rw [hcatalog]
    exact h.updateCatalog (hc issued h.issues)

lemma internChain (s : Store) (r : RegistryId) (levels : List PrefabLevel) :
    s.Keeps r (s.updateCatalog r ((s.catalog r).internChain levels).2) :=
  .updateCatalog (PrefabCatalog.types_internChain _ levels)
    ((s.catalog r).extends_internChain levels).keys fun _ h => h.internChain levels

/-- A declared type is added. -/
lemma push (hl : s.layOut d = .ok type)
    (hsuper : ∀ u, d.superType = some u → u.index < s.types.size) :
    s.Keeps r { s with types := s.types.push type } := by
  refine of_evolves (Enlarges.push_type s type).evolves (fun ho => ho.push ?_) (Nat.le_refl _) rfl
  obtain ⟨-, -, rfl⟩ := layOut_eq_ok_iff.1 hl
  exact hsuper

lemma publish (s : Store) (t : TypeId) (resolution : Resolution) :
    s.Keeps r (s.publish t resolution) := by
  refine of_evolves (.publish s t resolution) (fun ho u v hv => ?_) (Nat.le_refl _) rfl
  refine ho u v ?_
  rw [← hv]
  exact (RecordType.eq_of_layout (·.superType) (fun _ => rfl)
    (layout_publish s t u resolution)).symm

end Keeps

end Store

end Records
