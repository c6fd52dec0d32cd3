import Records.Proofs.Instance.Slots
import Records.Proofs.Registry.Denotation
import Records.Proofs.Registry.Purity

/-!
# Literals of prefab instances

A prefab instance is printed as the short form of the key of its type and the contents of all its
fields. The printer walks up the chain of the type, and asks no registry for the key; the reader
recovers the init count that the short form leaves out from the number of fields. What is printed
of an instance denotes an instance of the same type with the same contents, which prints alike.

## Main definitions

* `Store.HasInstance`: an instance of a type with all its fields.

## Main statements

* `PrefabDatum.same_short`: the short forms of one structure are the same.
* `Session.Reachable.reads_back`: what is printed of an instance of a registered type reads back.
-/

namespace Records

/-! ### Short forms of one structure -/

namespace Value

variable {as bs cs ds : List Value}

lemma unlabelledAll_append (as bs : List Value) :
    unlabelledAll (as ++ bs) = unlabelledAll as ++ unlabelledAll bs := by
  induction as with
  | nil => rfl
  | cons a as ih => rw [List.cons_append, unlabelledAll, ih, unlabelledAll, List.cons_append]

lemma sameAll_append (h : sameAll as bs) (h' : sameAll cs ds) :
    sameAll (as ++ cs) (bs ++ ds) := by
  rw [sameAll_iff] at h h' ⊢
  rw [unlabelledAll_append, h, h', unlabelledAll_append]

lemma sameAll_refl (as : List Value) : sameAll as as := (sameAll_iff as as).2 rfl

lemma sameAll_cons {a b : Value} (h : a.same b) (h' : sameAll as bs) :
    sameAll (a :: as) (b :: bs) := by
  rw [sameAll, h, h']
  rfl

end Value

namespace PrefabLevel

variable {l m : PrefabLevel}

lemma sameAll_options (h : l.same m) : Value.sameAll l.options m.options := by
  obtain ⟨-, -, hauto, hvalue, hmutables⟩ := same_iff.1 h
  unfold options
  rw [hauto, hmutables]
  refine Value.sameAll_append ?_ (Value.sameAll_refl _)
  split
  · rfl
  · have hpair := Value.sameAll_cons (Value.same_refl (.ofNat m.autoCount))
      (Value.sameAll_cons hvalue (Value.sameAll_refl []))
    exact Value.sameAll_cons hpair (Value.sameAll_refl [])

lemma sameAll_elements (h : l.same m) : Value.sameAll l.elements m.elements := by
  obtain ⟨hname, hinit, -⟩ := same_iff.1 h
  rw [elements, elements, hname, hinit]
  exact Value.sameAll_cons (Value.same_refl _)
    (Value.sameAll_cons (Value.same_refl _) (sameAll_options h))

end PrefabLevel

variable {a b : List PrefabLevel}

lemma SameChain.sameAll_elements (h : SameChain a b) :
    Value.sameAll (a.flatMap PrefabLevel.elements) (b.flatMap PrefabLevel.elements) := by
  induction h with
  | nil => rfl
  | cons hl _ ih => exact Value.sameAll_append (PrefabLevel.sameAll_elements hl) ih

/-- The short forms of one structure are the same. -/
lemma PrefabDatum.same_short (h : SameChain a b) : (short a).same (short b) := by
  cases h with
  | nil => rfl
  | @cons l m supers supers' hl hs =>
    have hrest := Value.sameAll_append (PrefabLevel.sameAll_options hl)
      (SameChain.sameAll_elements hs)
    have hname := (PrefabLevel.same_iff.1 hl).1
    cases hx : l.options ++ supers.flatMap PrefabLevel.elements with
    | nil =>
      rw [hx] at hrest
      cases hy : m.options ++ supers'.flatMap PrefabLevel.elements with
      | nil =>
        simp only [short, hx, hy, hname]
        exact Value.same_refl _
      | cons y ys =>
        rw [hy] at hrest
        cases hrest
    | cons x xs =>
      rw [hx] at hrest
      cases hy : m.options ++ supers'.flatMap PrefabLevel.elements with
      | nil =>
        rw [hy] at hrest
        cases hrest
      | cons y ys =>
        rw [hy] at hrest
        simp only [short, hx, hy, hname]
        exact Value.sameAll_cons (Value.same_refl _) hrest

/-! ### Numbers of fields -/

lemma PrefabLevel.totalCount_map (types : List RecordType) :
    PrefabLevel.totalCount (types.map RecordType.prefabLevel) = fieldCount types := by
  induction types with
  | nil => rfl
  | cons t types ih => rw [List.map_cons, totalCount, ih, fieldCount_cons]; rfl

/-- A chain whose fields can be counted in a word can be printed, unless it hides an auto value. -/
lemma PrefabLevel.printable_of_totalCount {levels : List PrefabLevel}
    (htotal : PrefabLevel.totalCount levels < 2 ^ 63)
    (hvalues : ∀ l ∈ levels, l.autoCount = 0 → l.autoValue = .bool false) :
    ∀ l ∈ levels, l.Printable := by
  induction levels with
  | nil => exact fun _ hl => absurd hl List.not_mem_nil
  | cons l levels ih =>
    obtain ⟨hl, hls⟩ := List.forall_mem_cons.1 hvalues
    rw [totalCount, ownCount] at htotal
    exact List.forall_mem_cons.2 ⟨⟨by omega, by omega, hl⟩, ih (by omega) hls⟩

/-! ### Instances -/

namespace Store

variable {s : Store} {r : RegistryId} {t : TypeId} {x y : InstanceId}

/-- An instance of a type, with one slot for each field of the whole chain. -/
structure HasInstance (s : Store) (t : TypeId) (x : InstanceId) : Prop where
  lt : x.index < s.instances.size
  type : (s.record x).type = t
  complete : (s.fieldValues x).length = (s.type t).totalCount

lemma fieldValues_withRecord_self (s : Store) (t : TypeId) (values : List Value) :
    (s.withRecord t values).fieldValues ⟨s.instances.size⟩ = values := by
  have hslot : (s.withRecord t values).slotValue ∘ Slot.raw = id := rfl
  rw [fieldValues, record_withRecord, if_pos rfl, List.map_map, hslot, List.map_id]

/-- Instances of one type with the same contents print alike. -/
lemma displayRecord_congr (htype : (s.record x).type = (s.record y).type)
    (hvalues : s.fieldValues x = s.fieldValues y) : s.displayRecord x = s.displayRecord y := by
  rw [displayRecord, displayRecordWithin, htype, hvalues, displayRecord, displayRecordWithin]

/-- The number of fields of a registered type is that of its levels. -/
lemma Registers.totalCount_prefabLevels (h : s.Registers r t) (hs : s.Coherent r)
    (hbare : ∀ u, s.Registers r u → s.IsBare u) :
    PrefabLevel.totalCount (s.prefabLevels t) = (s.type t).totalCount := by
  rw [h.totalCount_eq hs hbare, prefabLevels, PrefabLevel.totalCount_map]

end Store

/-! ### Reading what was printed -/

section

variable {s : Store} {r : RegistryId} {t : TypeId} {k : PrefabKey} {levels : List PrefabLevel}

/-- A datum that reads as the structure of a type makes an instance of the type. -/
lemma run_prefabInstance_of_levelsFor? (hs : s.Coherent r) {datum : Value} {values : List Value}
    (hk : s.IsKeyOf r levels k) (ht : (s.catalog r).typeFor? k = some t)
    (hlevels : PrefabDatum.levelsFor? datum values.length = some levels)
    (hkey : values.length = k.totalCount) (htype : values.length = (s.type t).totalCount) :
    (prefabInstance r datum values).run s =
      (.ok ⟨s.instances.size⟩, s.withRecord t values) := by
  rw [prefabInstance, StoreM.run_bind, run_keyOfDatum_of_isKeyOf hs hk hlevels]
  simp only [if_pos hkey]
  rw [StoreM.run_bind, run_prefabType_of_typeFor? ht]
  simp only [run_newInstance, if_pos htype]
  rfl

/-- The short form of a printable chain reads as the chain, for as many fields as it has. -/
lemma levelsFor?_short_of_ne_nil (hne : levels ≠ []) (hl : ∀ l ∈ levels, l.Printable)
    (hb : ∀ l ∈ levels, l.Bounded) :
    PrefabDatum.levelsFor? (PrefabDatum.short levels) (PrefabLevel.totalCount levels) =
      some levels := by
  cases levels with
  | nil => exact absurd rfl hne
  | cons l supers => exact PrefabDatum.levelsFor?_short hl hb

end

namespace Session

variable {S : Session} {r : RegistryId} {t : TypeId} {x : InstanceId}

/-- In every state of a session the short form of the key of a registered type is what is printed
of the chain of the type. Whichever of the two is read with the contents of an instance of the
type, it makes an instance of the same type with the same contents, and the two instances print
alike. This holds unless the chain hides an auto value, and for as many fields as can be counted in
a word. -/
theorem Reachable.reads_back (h : S.Reachable r) (ht : S.store.Registers r t)
    (hx : S.store.HasInstance t x) (hcount : (S.store.fieldValues x).length < 2 ^ 63)
    (hvalues : ∀ l ∈ S.store.prefabLevels t, l.autoCount = 0 → l.autoValue = .bool false) :
    ∃ k, (prefabKeyOf? r t).run S.store = (.ok (some k), S.store) ∧
      PrefabDatum.short (S.store.prefabLevels t) == PrefabDatum.short k.levels ∧
      ∀ datum ∈ [PrefabDatum.short (S.store.prefabLevels t), PrefabDatum.short k.levels],
        ∃ y s, (prefabInstance r datum (S.store.fieldValues x)).run S.store = (.ok y, s) ∧
          (s.record y).type = t ∧ s.fieldValues y = S.store.fieldValues x ∧
          s.displayRecord y = s.displayRecord x := by
  have hs := h.sound.coherent
  have hcatalog := hs.catalog
  have htotal := ht.totalCount_prefabLevels hs h.plain.bare
  have hprefab := ht.isPrefab hs
  obtain ⟨k, hk, hkt⟩ := ht
  have hchain := hcatalog.sameChain_prefabLevels hk hkt
  have hlength : (S.store.fieldValues x).length = k.totalCount := by
    rw [PrefabKey.totalCount, hchain.totalCount_eq, htotal, hx.complete]
  have hprintable : ∀ l ∈ S.store.prefabLevels t, l.Printable := by
    refine PrefabLevel.printable_of_totalCount ?_ hvalues
    rw [htotal, ← hx.complete]
    exact hcount
  refine ⟨k, ?_, PrefabDatum.same_short hchain.symm, fun datum hdatum => ?_⟩
  · rw [prefabKeyOf?, StoreM.run_bind]
    simp only [StoreM.run_get, if_pos hprefab]
    rw [StoreM.run_bind, run_keyOfType_of_typeFor? hs hk hkt]
    rfl
  · -- either datum reads as the chain that it was printed from
    obtain ⟨levels, hsame, hlevels⟩ : ∃ levels, SameChain k.levels levels ∧
        PrefabDatum.levelsFor? datum (S.store.fieldValues x).length = some levels := by
      rcases List.mem_pair.1 hdatum with rfl | rfl
      · refine ⟨_, hchain, ?_⟩
        rw [hx.complete, ← htotal]
        refine levelsFor?_short_of_ne_nil ?_ hprintable ?_
        · exact List.ne_nil_of_mem (List.mem_map_of_mem (List.mem_map_of_mem
            (S.store.mem_ancestry_self t)))
        · exact bounded_inheritedLevels S.store (some t)
      · refine ⟨_, SameChain.refl _, ?_⟩
        rw [hlength]
        exact levelsFor?_short_of_ne_nil (List.cons_ne_nil _ _)
          (hchain.printable_iff.2 hprintable) (hcatalog.interned.bounded_levels hk)
    have hrecord : ∀ i, ((S.store.withRecord t (S.store.fieldValues x)).record i) =
        if i.index = S.store.instances.size then _ else S.store.record i :=
      S.store.record_withRecord t _
    have hold : (S.store.withRecord t (S.store.fieldValues x)).record x = S.store.record x := by
      rw [hrecord, if_neg (Nat.ne_of_lt hx.lt)]
    have htype : ((S.store.withRecord t (S.store.fieldValues x)).record
        ⟨S.store.instances.size⟩).type = t := by
      rw [hrecord, if_pos rfl]
    have hcontents := S.store.fieldValues_withRecord_self t (S.store.fieldValues x)
    refine ⟨_, _, run_prefabInstance_of_levelsFor? hs ⟨hk, hsame⟩ hkt hlevels hlength hx.complete,
      htype, hcontents, Store.displayRecord_congr ?_ ?_⟩
    · rw [htype, hold, hx.type]
    · rw [hcontents]
      show S.store.fieldValues x = ((Store.withRecord _ _ _).record x).slots.toList.map _
      rw [hold]
      rfl

/-- A prefab type with a mutable field and an auto field. -/
def cellDeclaration : Declaration where
  name := ⟨"cell"⟩
  initCount := 2
  autoCount := 1
  autoValue := .ofNat 0
  inspector := .prefab
  immutables := [0]

/-- What is printed of the type in front of its instances. -/
def cellDatum : Value :=
  .list [.ofName "cell", .list [.ofNat 1, .ofNat 0], .vector [.ofNat 1]]

/-- The type is defined, and an instance of it is made. -/
def cellSession : Session :=
  (Session.initial.begin ⟨0⟩ cellDeclaration).ask
    (prefabInstance ⟨0⟩ cellDatum [.ofNat 1, .ofNat 2, .ofNat 0]) fun i s =>
      [((PrefabDatum.levelsFor? cellDatum 3).getD [], (s.record i).type)]

lemma reachable_cellSession : cellSession.Reachable ⟨0⟩ := by
  have hcell := Session.reachable_initial.step (.begin cellDeclaration fun _ t ht => by cases ht)
  exact hcell.step (.prefabInstance cellDatum [.ofNat 1, .ofNat 2, .ofNat 0])

lemma registers_cellSession : cellSession.store.Registers ⟨0⟩ ⟨0⟩ :=
  reachable_cellSession.registers (.inr ⟨_, List.mem_cons_self, rfl⟩) rfl

/-- The instance is made once more from what is printed of its type and from its contents. -/
theorem Reachable.reads_back_cell :
    cellSession.store.Registers ⟨0⟩ ⟨0⟩ ∧ cellSession.store.HasInstance ⟨0⟩ ⟨0⟩ ∧
    ∃ k, (prefabKeyOf? ⟨0⟩ ⟨0⟩).run cellSession.store = (.ok (some k), cellSession.store) ∧
      PrefabDatum.short (cellSession.store.prefabLevels ⟨0⟩) == PrefabDatum.short k.levels ∧
      ∀ datum ∈ [PrefabDatum.short (cellSession.store.prefabLevels ⟨0⟩),
          PrefabDatum.short k.levels],
        ∃ y s, (prefabInstance ⟨0⟩ datum (cellSession.store.fieldValues ⟨0⟩)).run
            cellSession.store = (.ok y, s) ∧
          (s.record y).type = ⟨0⟩ ∧ s.fieldValues y = cellSession.store.fieldValues ⟨0⟩ ∧
          s.displayRecord y = s.displayRecord ⟨0⟩ := by
  have hinstance : cellSession.store.HasInstance ⟨0⟩ ⟨0⟩ := ⟨by decide, rfl, rfl⟩
  refine ⟨registers_cellSession, hinstance, reachable_cellSession.reads_back registers_cellSession
    hinstance (by decide) fun l hl hauto => ?_⟩
  obtain rfl := List.mem_singleton.1 hl
  cases hauto

example : cellSession.store.displayRecord ⟨0⟩ = "#s((cell (1 0) #(1)) 1 2 0)" := by decide +kernel

end Session

end Records
