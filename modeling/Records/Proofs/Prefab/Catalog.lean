import Records.Proofs.Entries
import Records.Proofs.Prefab.Keys

/-!
# Coherence of a catalog

The keys of a catalog form a table, and every level has its mutable fields among its init fields.
The types a catalog remembers fit their keys, level by level.

## Main statements

* `PrefabCatalog.Interned.internLevels`: interning a chain answers its key.
* `PrefabCatalog.Coherent.register`: registering a type that fits keeps a catalog coherent.
-/

namespace Records

namespace PrefabCatalog

/-! ### Growth -/

/-- Later states of a catalog that is never reset. -/
structure Extends (c c' : PrefabCatalog) : Prop where
  keys : ∀ k ∈ c.keys, k ∈ c'.keys
  types : ∀ k ∈ c.keys, ∀ t, c.typeFor? k = some t → c'.typeFor? k = some t

lemma Extends.refl (c : PrefabCatalog) : c.Extends c := ⟨fun _ h => h, fun _ _ _ h => h⟩

lemma Extends.trans {c c' c'' : PrefabCatalog} (h : c.Extends c') (h' : c'.Extends c'') :
    c.Extends c'' :=
  ⟨fun k hk => h'.keys k (h.keys k hk),
    fun k hk t ht => h'.types k (h.keys k hk) t (h.types k hk t ht)⟩

/-! ### Keys -/

/-- The keys of a catalog form a table without repetitions. -/
structure Interned (c : PrefabCatalog) : Prop where
  number_lt : ∀ k ∈ c.keys, k.id.number < c.issued
  number_inj : ∀ k ∈ c.keys, ∀ k' ∈ c.keys, k.id.number = k'.id.number → k = k'
  super_mem : ∀ k ∈ c.keys, ∀ k', k.superKey? = some k' → k' ∈ c.keys
  level_inj : ∀ k ∈ c.keys, ∀ k' ∈ c.keys, k.level.same k'.level →
    k.superNumber? = k'.superNumber? → k = k'
  bounded : ∀ k ∈ c.keys, k.level.Bounded

variable {c : PrefabCatalog} {level : PrefabLevel} {super : Option PrefabKey}

/-- The catalog after keys were added; the types are those it had. -/
structure AddsKeys (c c' : PrefabCatalog) : Prop where
  interned : c'.Interned
  keys : ∀ k ∈ c.keys, k ∈ c'.keys
  types : c'.types = c.types

lemma AddsKeys.typeFor? {c c' : PrefabCatalog} (h : c.AddsKeys c') (k : PrefabKey) :
    c'.typeFor? k = c.typeFor? k := by
  rw [PrefabCatalog.typeFor?, h.types, PrefabCatalog.typeFor?]

lemma AddsKeys.extends_catalog {c c' : PrefabCatalog} (h : c.AddsKeys c') : c.Extends c' :=
  ⟨h.keys, fun k _ t ht => by rw [h.typeFor?, ht]⟩

lemma AddsKeys.trans {c c' c'' : PrefabCatalog} (h : c.AddsKeys c') (h' : c'.AddsKeys c'') :
    c.AddsKeys c'' :=
  ⟨h'.interned, fun k hk => h'.keys k (h.keys k hk), h'.types.trans h.types⟩

/-- Interning registers no types. -/
lemma types_intern (c : PrefabCatalog) (level : PrefabLevel) (super : Option PrefabKey) :
    (c.intern level super).2.types = c.types := by
  unfold intern
  split <;> rfl

lemma types_internChain (c : PrefabCatalog) (levels : List PrefabLevel) :
    (c.internChain levels).2.types = c.types := by
  induction levels with
  | nil => rfl
  | cons level supers ih =>
    rw [internChain_cons, internLevels, types_intern, ih]

lemma types_internDatum (c : PrefabCatalog) (d : PrefabDatum) (total : Nat) :
    (c.internDatum d total).2.types = c.types := by
  cases hl : d.levelFor? ((c.internChain d.supers).1.elim 0 PrefabKey.totalCount) total with
  | none =>
    simp only [internDatum, hl]
    exact types_internChain c d.supers
  | some level =>
    simp only [internDatum, hl]
    exact types_internChain c (level :: d.supers)

namespace Interned

lemma keyed (h : c.Interned) : c.Keyed :=
  ⟨h.number_lt, h.number_inj, h.super_mem, h.level_inj⟩

/-- Every level of a known key has its mutable fields among its init fields. -/
lemma bounded_levels (h : c.Interned) {k : PrefabKey} (hk : k ∈ c.keys) :
    ∀ l ∈ k.levels, l.Bounded := by
  induction k using PrefabKey.rec_superKey? with
  | h k ih =>
    rw [k.levels_eq]
    refine List.forall_mem_cons.2 ⟨h.bounded k hk, ?_⟩
    cases hs : k.superKey? with
    | none => exact fun _ hl => absurd hl List.not_mem_nil
    | some k' => exact ih k' hs (h.super_mem k hk k' hs)

/-- Interning a level answers a key of it and keeps every key there is. -/
lemma intern (h : c.Interned) (hsuper : ∀ k ∈ super, k ∈ c.keys) (hl : level.Bounded) :
    c.AddsKeys (c.intern level super).2 ∧
      (c.intern level super).1 ∈ (c.intern level super).2.keys ∧
      (c.intern level super).1.level.same level ∧
      (c.intern level super).1.superKey? = super := by
  obtain ⟨hkeyed, hkeys, hanswer⟩ := h.keyed.intern level hsuper
  have hbounded : ∀ k ∈ (c.intern level super).2.keys, k.level.Bounded := by
    cases hf : c.find? level super with
    | some k =>
      rw [intern_of_find? hf]
      exact h.bounded
    | none =>
      rw [intern_of_find?_eq_none hf]
      exact List.forall_mem_cons.2 ⟨hl, h.bounded⟩
  exact ⟨⟨⟨hkeyed.number_lt, hkeyed.number_inj, hkeyed.super_mem, hkeyed.level_inj, hbounded⟩,
    hkeys, types_intern c level super⟩, hanswer⟩

/-- Interning a chain answers its key. -/
lemma internChain (h : c.Interned) {levels : List PrefabLevel}
    (hl : ∀ l ∈ levels, l.Bounded) :
    c.AddsKeys (c.internChain levels).2 ∧
      (c.internChain levels).2.KeyOf levels (c.internChain levels).1 := by
  refine ⟨?_, (h.keyed.numbered.internChain levels).2⟩
  induction levels with
  | nil => exact ⟨h, fun _ hk => hk, rfl⟩
  | cons level supers ih =>
    have hadds := ih fun l hmem => hl l (List.mem_cons_of_mem _ hmem)
    have hkey := (h.keyed.numbered.internChain supers).2
    have hsuper : ∀ k ∈ (c.internChain supers).1, k ∈ (c.internChain supers).2.keys := by
      intro k hk
      rw [Option.mem_def.1 hk] at hkey
      exact hkey.1
    exact hadds.trans (hadds.interned.intern hsuper (hl level List.mem_cons_self)).1

lemma internLevels (h : c.Interned) {supers : List PrefabLevel} (hl : level.Bounded)
    (hs : ∀ l ∈ supers, l.Bounded) :
    c.AddsKeys (c.internLevels level supers).2 ∧
      (c.internLevels level supers).1 ∈ (c.internLevels level supers).2.keys ∧
      SameChain (c.internLevels level supers).1.levels (level :: supers) :=
  h.internChain (List.forall_mem_cons.2 ⟨hl, hs⟩)

end Interned

/-! ### Types -/

/-- A type fits a key: it realizes the first level, and its super type is the type registered
for the super key. -/
structure Fits (c : PrefabCatalog) (s : Store) (k : PrefabKey) (t : TypeId) : Prop where
  lt : t.index < s.types.size
  realizes : (s.type t).Realizes k.level
  root : k.superKey? = none → (s.type t).superType = none
  super : ∀ k', k.superKey? = some k' → ∃ u, c.typeFor? k' = some u ∧
    (s.type t).superType = some u ∧ u.index < t.index

/-- The types of a catalog belong to its keys and fit them. -/
structure Coherent (c : PrefabCatalog) (s : Store) : Prop where
  interned : c.Interned
  registered : ∀ e ∈ c.types, ∃ k ∈ c.keys, k.id.number = e.1
  fits : ∀ k ∈ c.keys, ∀ t, c.typeFor? k = some t → c.Fits s k t

lemma Fits.mono {c' : PrefabCatalog} {s s' : Store} {k : PrefabKey} {t : TypeId}
    (h : c.Fits s k t) (hk : k ∈ c.keys) (hc : c.Interned) (hs : s.Evolves s')
    (hcc : c.Extends c') : c'.Fits s' k t where
  lt := hs.lt h.lt
  realizes := h.realizes.of_layout (hs.layout t h.lt)
  root hroot := (congrArg RecordType.superType (hs.layout t h.lt)).trans (h.root hroot)
  super k' hk' := by
    obtain ⟨u, hu, hsuper, hlt⟩ := h.super k' hk'
    exact ⟨u, hcc.types k' (hc.super_mem k hk k' hk') u hu,
      (congrArg RecordType.superType (hs.layout t h.lt)).trans hsuper, hlt⟩

namespace Coherent

variable {s s' : Store}

/-- The store may evolve under a catalog. -/
lemma of_evolves (h : c.Coherent s) (hs : s.Evolves s') : c.Coherent s' where
  interned := h.interned
  registered := h.registered
  fits k hk t ht := (h.fits k hk t ht).mono hk h.interned hs (Extends.refl c)

lemma of_addsKeys {c' : PrefabCatalog} (h : c.Coherent s) (hc : c.AddsKeys c') :
    c'.Coherent s where
  interned := hc.interned
  registered e he := by
    rw [hc.types] at he
    obtain ⟨k, hk, hn⟩ := h.registered e he
    exact ⟨k, hc.keys k hk, hn⟩
  fits k hk t ht := by
    rw [hc.typeFor?] at ht
    -- a key with a type has the number of an old key, so it is that key
    obtain ⟨k', hk', hn⟩ := h.registered (k.id.number, t) (mem_of_find?_key ht)
    have : k' = k := hc.interned.number_inj k' (hc.keys k' hk') k hk hn
    subst this
    exact (h.fits k' hk' t ht).mono hk' h.interned (Store.Evolves.refl s) hc.extends_catalog

/-- Registering a type that fits keeps a catalog coherent. -/
lemma register (h : c.Coherent s) {k : PrefabKey} {t : TypeId} (hk : k ∈ c.keys)
    (ht : c.Fits s k t) :
    (c.register k t).2.Coherent s ∧ c.Extends (c.register k t).2 ∧
      ∀ k' u, (c.register k t).2.typeFor? k' = some u → c.typeFor? k' = some u ∨ u = t := by
  cases hf : c.typeFor? k with
  | some existing =>
    rw [PrefabCatalog.register, hf]
    exact ⟨h, Extends.refl c, fun _ _ hu => .inl hu⟩
  | none =>
    rw [PrefabCatalog.register, hf]
    have hother : ∀ k' ∈ c.keys, k' ≠ k →
        PrefabCatalog.typeFor? { c with types := (k.id.number, t) :: c.types } k' =
          c.typeFor? k' := by
      intro k' hk' hne
      have hn : ¬(k.id.number = k'.id.number) := fun hn =>
        hne (h.interned.number_inj k' hk' k hk hn.symm)
      simp [PrefabCatalog.typeFor?, hn]
    have hext : c.Extends { c with types := (k.id.number, t) :: c.types } := by
      refine ⟨fun _ hk => hk, fun k' hk' u hu => ?_⟩
      rw [hother k' hk' (by rintro rfl; rw [hf] at hu; cases hu), hu]
    refine ⟨⟨⟨h.interned.number_lt, h.interned.number_inj, h.interned.super_mem,
      h.interned.level_inj, h.interned.bounded⟩, ?_, ?_⟩, hext, ?_⟩
    · intro e he
      rcases List.mem_cons.1 he with rfl | he
      · exact ⟨k, hk, rfl⟩
      · exact h.registered e he
    · intro k' hk' u hu
      by_cases heq : k' = k
      · subst heq
        have : u = t := by simpa [PrefabCatalog.typeFor?, eq_comm] using hu
        rw [this]
        exact ht.mono hk h.interned (Store.Evolves.refl s) hext
      · rw [hother k' hk' heq] at hu
        exact (h.fits k' hk' u hu).mono hk' h.interned (Store.Evolves.refl s) hext
    · intro k' u hu
      by_cases hn : k.id.number = k'.id.number
      · have : t = u := by simpa [PrefabCatalog.typeFor?, hn] using hu
        exact .inr this.symm
      · have : c.typeFor? k' = some u := by simpa [PrefabCatalog.typeFor?, hn] using hu
        exact .inl this

/-- Every type of a catalog exists. -/
lemma lt_of_typeFor? (h : c.Coherent s) {k : PrefabKey} {t : TypeId}
    (ht : c.typeFor? k = some t) : t.index < s.types.size := by
  obtain ⟨k', hk', hn⟩ := h.registered (k.id.number, t) (mem_of_find?_key ht)
  have ht' : c.typeFor? k' = some t := by
    rw [← ht, PrefabCatalog.typeFor?, PrefabCatalog.typeFor?, hn]
  exact (h.fits k' hk' t ht').lt

/-- The chain of a registered type is the chain of its key. -/
lemma sameChain_ancestryWithin (h : c.Coherent s) {k : PrefabKey} (hk : k ∈ c.keys)
    {t : TypeId} (ht : c.typeFor? k = some t) {n : Nat} (hn : t.index ≤ n) :
    SameChain k.levels ((s.ancestryWithin n t).map fun u => (s.type u).prefabLevel) := by
  induction k using PrefabKey.rec_superKey? generalizing t n with
  | h k ih =>
    have hfits := h.fits k hk t ht
    have hlevel := hfits.realizes.same (h.interned.bounded k hk)
    rw [k.levels_eq]
    cases hs : k.superKey? with
    | none =>
      cases n with
      | zero => simp [Store.ancestryWithin, hlevel]
      | succ n => simp [Store.ancestryWithin, hlevel, hfits.root hs]
    | some k' =>
      obtain ⟨u, hu, hsuper, hlt⟩ := hfits.super k' hs
      cases n with
      | zero => omega
      | succ n =>
        simp only [Store.ancestryWithin, hsuper, List.map_cons, SameChain.cons_iff]
        exact ⟨hlevel, ih k' hs (h.interned.super_mem k hk k' hs) hu (by omega)⟩

lemma sameChain_prefabLevels (h : c.Coherent s) {k : PrefabKey} (hk : k ∈ c.keys)
    {t : TypeId} (ht : c.typeFor? k = some t) : SameChain k.levels (s.prefabLevels t) := by
  rw [Store.prefabLevels, Store.chain, Store.ancestry, List.map_map]
  exact h.sameChain_ancestryWithin hk ht (Nat.le_refl _)

end Coherent

end PrefabCatalog

end Records
