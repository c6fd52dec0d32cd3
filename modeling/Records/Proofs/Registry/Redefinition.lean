import Records.Proofs.Registry.Inheritance
import Records.Proofs.Registry.Retention
import Mathlib.Data.List.Dedup
import Mathlib.Data.List.Perm.Subperm

/-!
# Definitions of finalized prefab types

A prefab declaration whose type is finalized already is answered with the type if the properties
it resolves to are those of the type. The comparison goes through one list and looks its entries
up in the other, and compares the lengths of the lists. Every property that was resolved is held
by the type, then; that the type holds no other one follows only if both lists repeat properties
equally often.

## Main definitions

* `settleDeclaration`: answering a declaration, up to the procedures of its type.
* `Matches`: what the comparison finds out about two lists.
* `SameMap`: two lists hold the same properties with equal values.
* `repeats`: how many entries of a list repeat a property.

## Main statements

* `sameMap_iff_repeats`: what the comparison is good for.
* `redefinition_sameMap_iff`: what a definition of a finalized type comes to.
-/

namespace Records

/-! ### Lists of properties -/

/-- Two lists are equally long, and every entry of the first one is found in the second one with
an equal value. -/
structure Matches (a b : List (PropertyId × Value)) : Prop where
  length : a.length = b.length
  held : ∀ x ∈ a, ∃ w, bindingOf b x.1 = some w ∧ w == x.2

/-- Two lists hold the same properties and equal values of them, going by the first entry of a
property. -/
structure SameMap (a b : List (PropertyId × Value)) : Prop where
  keys : ∀ p, (bindingOf a p).isSome = (bindingOf b p).isSome
  values : ∀ p v w, bindingOf a p = some v → bindingOf b p = some w → v == w

/-- How many entries of a list repeat a property. -/
def repeats (bindings : List (PropertyId × Value)) : Nat :=
  bindings.length - (bindings.map (·.1)).dedup.length

variable {a b : List (PropertyId × Value)}

lemma isSome_bindingOf_iff {p : PropertyId} :
    (bindingOf a p).isSome ↔ p ∈ (a.map (·.1)).dedup := by
  rw [Option.isSome_iff_ne_none, Ne, bindingOf_eq_none_iff, List.mem_dedup, List.mem_map]
  push Not
  exact Iff.rfl

/-- The value of a property stands in the list. -/
lemma mem_of_bindingOf {p : PropertyId} {v : Value} (h : bindingOf a p = some v) :
    (p, v) ∈ a :=
  mem_of_find?_key h

/-- Lists that match are the same map exactly if both repeat properties equally often. -/
lemma sameMap_iff_repeats (hab : Matches a b) : SameMap a b ↔ repeats a = repeats b := by
  obtain ⟨hlength, hall⟩ := hab
  have hsubset : (a.map (·.1)).dedup ⊆ (b.map (·.1)).dedup := by
    intro p hp
    obtain ⟨x, hx, rfl⟩ := List.mem_map.1 (List.mem_dedup.1 hp)
    obtain ⟨w, hw, -⟩ := hall x hx
    rw [← isSome_bindingOf_iff, hw]
    rfl
  have hsubperm := List.subperm_of_subset (List.nodup_dedup _) hsubset
  have hle := (List.dedup_sublist (a.map (·.1))).length_le
  have hle' := (List.dedup_sublist (b.map (·.1))).length_le
  rw [List.length_map] at hle hle'
  constructor
  · intro h
    have hsubset' : (b.map (·.1)).dedup ⊆ (a.map (·.1)).dedup := by
      intro p hp
      rw [← isSome_bindingOf_iff, h.keys p, isSome_bindingOf_iff]
      exact hp
    have hlen := hsubperm.length_le
    have hlen' := (List.subperm_of_subset (List.nodup_dedup _) hsubset').length_le
    unfold repeats
    omega
  · intro h
    unfold repeats at h
    have hperm := hsubperm.perm_of_length_le (by omega)
    refine ⟨fun p => ?_, fun p v w hv hw => ?_⟩
    · rw [Bool.eq_iff_iff, isSome_bindingOf_iff, isSome_bindingOf_iff]
      exact hperm.mem_iff
    · obtain ⟨w', hw', hsame⟩ := hall (p, v) (mem_of_bindingOf hv)
      rw [hw'] at hw
      cases hw
      exact Value.same_symm hsame

lemma RecordType.sameProperties_iff {t u : RecordType} :
    t.sameProperties u ↔ Matches t.properties u.properties := by
  simp only [sameProperties, Bool.and_eq_true, decide_eq_true_eq, List.all_eq_true,
    Option.any_eq_true]
  constructor
  · rintro ⟨hlength, hheld⟩
    exact ⟨hlength, hheld⟩
  · intro h
    exact ⟨h.length, h.held⟩

/-! ### Answering a declaration -/

/-- Answer a declaration, up to the procedures of its type. -/
def settleDeclaration (r : RegistryId) (d : Declaration) : Computation Settled := do
  let plan ← prepare r d
  let a ← plan.attachment d
  plan.conclude d a

/-- Making the procedures of the type is all that is left. -/
theorem define_eq_settleDeclaration (r : RegistryId) (d : Declaration) :
    define r d = (settleDeclaration r d).bind fun c => .done (definition c.type) := by
  rw [define_eq_phases]
  simp only [settleDeclaration, Computation.bind_eq, Computation.bind_assoc]
  rfl

/-- What a type with this super type inherits if it is finalized now. -/
def Store.inherited (s : Store) (super : Option TypeId) : List (PropertyId × Value) :=
  super.elim [] fun u => (s.type u).properties

/-- The fields of a declared type, inherited ones included. -/
def Store.declaredCount (s : Store) (d : Declaration) : Nat :=
  d.inspector.count (s.inheritedCount d.superType + (d.initCount + d.autoCount))

/-- A type is pending, and was laid out as it is declared. -/
structure Store.IsCandidate (s : Store) (d : Declaration) (c : TypeId) : Prop where
  lt : c.index < s.types.size
  pending : (s.type c).resolution = none
  superType : (s.type c).superType = d.superType
  totalCount : (s.type c).totalCount = s.declaredCount d

section

variable {r : RegistryId} {s s' : Store} {d : Declaration} {t c : TypeId} {a : Attached}
  {R : Store → Store → Prop} {calls : List Exchange} {out : Except Failure Settled}
  {answer : Settled}

lemma Store.Evolves.declaredCount_eq (h : s.Evolves s')
    (hsuper : ∀ u, d.superType = some u → u.index < s.types.size) :
    s'.declaredCount d = s.declaredCount d := by
  rw [declaredCount, declaredCount, inheritedCount_congr fun u hu => h.layout u (hsuper u hu)]

/-- A type that is laid out has as many fields as are declared. -/
lemma Store.totalCount_of_layOut {type : RecordType} (h : s.layOut d = .ok type) :
    type.totalCount = s.declaredCount d := by
  obtain ⟨_, -, rfl⟩ := layOut_eq_ok_iff.1 h
  rfl

/-- A declared type is laid out behind all others. -/
lemma Store.isCandidate_push {type : RecordType} (h : s.layOut d = .ok type)
    (hsuper : ∀ u, d.superType = some u → u.index < s.types.size) :
    ({ s with types := s.types.push type } : Store).IsCandidate d ⟨s.types.size⟩ := by
  have hcount := (Enlarges.push_type s type).evolves.declaredCount_eq hsuper
  have htotal := totalCount_of_layOut h
  obtain ⟨_, -, rfl⟩ := layOut_eq_ok_iff.1 h
  refine ⟨by simp, ?_, ?_, ?_⟩
  · rw [type_push_self]
  · rw [type_push_self]
  · rw [hcount, type_push_self]
    exact htotal

/-- A candidate stays one until it is resolved. -/
lemma Store.IsCandidate.evolves (h : s.IsCandidate d c) (hs : s.Evolves s')
    (hsuper : ∀ u, d.superType = some u → u.index < s.types.size)
    (hpending : (s'.type c).resolution = none) : s'.IsCandidate d c where
  lt := hs.lt h.lt
  pending := hpending
  superType :=
    (RecordType.eq_of_layout (·.superType) (fun _ => rfl) (hs.layout c h.lt)).trans h.superType
  totalCount := by
    rw [RecordType.eq_of_layout (·.totalCount) (fun _ => rfl) (hs.layout c h.lt), h.totalCount,
      hs.declaredCount_eq hsuper]

/-! ### Definitions of finalized types -/

/-- The plan for a declaration whose structure has a registered type. -/
lemma run_prepare_of_typeFor? (hd : d.inspector = .prefab)
    (ht : s.typeFor? r (s.declaredKey r d) = some t) :
    (prepare r d).advance.run s =
      match s.prefabRestriction? d with
      | some what => (.error (.condition (.prefabRestriction d.name.name what)), s)
      | none => (planFor t d).advance.run (s.internDeclared r d) := by
  rw [prepare, if_pos hd]
  show ((Computation.ofStoreM (prefabTypeOfDeclaration r d)).bind
    fun t => planFor t d).advance.run s = _
  rw [Computation.run_advance_bind, Computation.run_advance_ofStoreM,
    run_prefabTypeOfDeclaration, ht]
  cases s.prefabRestriction? d <;> rfl

/-- The plan for a declaration whose structure has a finalized type: declared properties are
attached to a candidate. -/
lemma run_prepare_of_finalized (hd : d.inspector = .prefab) (hne : d.properties ≠ [])
    (ht : s.typeFor? r (s.declaredKey r d) = some t) (hfinal : (s.type t).isFinalized) :
    (prepare r d).advance.run s =
      match s.prefabRestriction? d with
      | some what => (.error (.condition (.prefabRestriction d.name.name what)), s)
      | none =>
        match (s.internDeclared r d).layOut d with
        | .error e => (.error (.condition e), s.internDeclared r d)
        | .ok type => (.ok (.returned (.compare t ⟨s.types.size⟩)),
            { s.internDeclared r d with types := s.types.push type }) := by
  have hempty : d.properties.isEmpty = false := by simpa using hne
  have hfinal' : ((s.internDeclared r d).type t).isFinalized := hfinal
  rw [run_prepare_of_typeFor? hd ht]
  cases s.prefabRestriction? d with
  | some what => rfl
  | none =>
    simp only [run_planFor, hfinal', hempty, if_true, Bool.false_eq_true, if_false]
    cases (s.internDeclared r d).layOut d <;> rfl

/-- Going on from the plan. -/
lemma runs_settleDeclaration_iff {plan : Plan} {s₁ : Store}
    (hplan : (prepare r d).advance.run s = (.ok (.returned plan), s₁)) :
    (settleDeclaration r d).Runs R s calls out s' ↔
      ((plan.attachment d).bind fun a => plan.conclude d a).Runs R s₁ calls out s' := by
  rw [Computation.runs_iff_of_advance, settleDeclaration, Computation.bind_eq,
    Computation.run_advance_bind, hplan]
  exact Computation.runs_iff_of_advance.symm

/-- A definition without a plan has no answer. -/
lemma not_runs_settleDeclaration {e : Failure} {s₁ : Store}
    (hplan : (prepare r d).advance.run s = (.error e, s₁)) :
    ¬(settleDeclaration r d).Runs R s calls (.ok answer) s' := by
  rw [Computation.runs_iff_of_advance, settleDeclaration, Computation.bind_eq,
    Computation.run_advance_bind, hplan]
  rintro ⟨-, ⟨⟩, -⟩

/-- A pending type is published with what was attached to it, in front of what its super type
holds. -/
lemma Store.properties_publish_self (hlt : c.index < s.types.size)
    (hpending : (s.type c).resolution = none) :
    ((s.publish c (s.resolve c a)).type c).properties =
      a.bindings ++ s.inherited (s.type c).superType := by
  have hlayout := RecordType.eq_of_layout (·.superType) (fun _ => rfl)
    (RecordType.layout_publish (s.type c) (s.resolve c a))
  rw [type_publish_self hlt, Session.properties_publish hpending, hlayout]
  rfl

/-- What a comparison comes to. The candidate holds what was attached to it, in front of what its
super type holds. -/
lemma runs_conclude_compare (hc : s.IsCandidate d c) (hne : t ≠ c)
    (h : ((Plan.compare t c).conclude d a).Runs R s calls out s') :
    calls = [] ∧ s' = s.publish c (s.resolve c a) ∧
      (Matches (a.bindings ++ s.inherited d.superType) (s.type t).properties ∧
          out = .ok ⟨t, a.bindings, none⟩ ∨
        ¬Matches (a.bindings ++ s.inherited d.superType) (s.type t).properties ∧
          ∃ e, out = .error e) := by
  have hproperties : ((s.publish c (s.resolve c a)).type c).properties =
      a.bindings ++ s.inherited d.superType := by
    rw [Store.properties_publish_self hc.lt hc.pending, hc.superType]
  have hsame : ((s.publish c (s.resolve c a)).type c).sameProperties
      ((s.publish c (s.resolve c a)).type t) ↔
        Matches (a.bindings ++ s.inherited d.superType) (s.type t).properties := by
    rw [RecordType.sameProperties_iff, hproperties, Store.type_publish_of_ne hne.symm]
  rw [Computation.runs_iff_of_advance, Plan.run_conclude] at h
  by_cases hmatches : Matches (a.bindings ++ s.inherited d.superType) (s.type t).properties
  · simp only [hsame.2 hmatches, if_true] at h
    obtain ⟨rfl, rfl, rfl⟩ := h
    refine ⟨rfl, rfl, .inl ⟨hmatches, ?_⟩⟩
    rw [hc.pending]
  · simp only [mt hsame.1 hmatches, Bool.false_eq_true, if_false] at h
    obtain ⟨rfl, rfl, rfl⟩ := h
    exact ⟨rfl, rfl, .inr ⟨hmatches, _, rfl⟩⟩

/-- Publishing changes what other types inherit only. -/
lemma Store.inherited_publish {super : Option TypeId} (hne : ∀ u, super = some u → c ≠ u)
    (resolution : Resolution) : (s.publish c resolution).inherited super = s.inherited super := by
  cases super with
  | none => rfl
  | some u => exact congrArg RecordType.properties (type_publish_of_ne (hne u rfl) resolution)

/-- Attaching to a candidate that is spared meanwhile, and comparing it. -/
lemma runs_compare (hR : ∀ s s', R s s' → s.Spares c s') (hc : s.IsCandidate d c)
    (hsuper : ∀ u, d.superType = some u → u.index < c.index) (hlt : t.index < c.index)
    (hfinal : (s.type t).isFinalized)
    (h : (((Plan.compare t c).attachment d).bind fun a =>
      (Plan.compare t c).conclude d a).Runs R s calls out s') :
    ∃ attached T, (attachAll c d.properties none).Runs R s calls attached T ∧
      s'.type t = s.type t ∧ (∀ e, attached = .error e → out = .error e) ∧
      ∀ a, attached = .ok a →
        (Matches (a.bindings ++ s'.inherited d.superType) (s.type t).properties ∧
            out = .ok ⟨t, a.bindings, none⟩ ∨
          ¬Matches (a.bindings ++ s'.inherited d.superType) (s.type t).properties ∧
            ∃ e, out = .error e) := by
  have hne : t ≠ c := by
    rintro rfl
    exact Nat.lt_irrefl _ hlt
  have hreads := (Plan.compare t c).onlyReads_attachment d s
  have hspares : ∀ {attached : Except Failure Attached} {calls : List Exchange} {T : Store},
      ((Plan.compare t c).attachment d).Runs R s calls attached T → s.Spares c T := by
    intro attached calls T hattach
    exact hreads.of_runs (fun _ _ hmove hs => trans_of (Store.Spares c) hs (hR _ _ hmove)) hattach
      (refl_of (Store.Spares c) s)
  rcases Computation.runs_bind_iff.1 h with
    ⟨e, hattach, rfl⟩ | ⟨a, T, before, after, hattach, hrest, rfl⟩
  · have htype := (hspares hattach).evolves.finalized t (Nat.lt_trans hlt hc.lt) hfinal
    refine ⟨.error e, s', hattach, htype, ?_, nofun⟩
    rintro _ ⟨⟩
    rfl
  · have htype := (hspares hattach).evolves.finalized t (Nat.lt_trans hlt hc.lt) hfinal
    have hpending : (T.type c).resolution = none := by
      rw [(hspares hattach).type hc.lt]
      exact hc.pending
    have hcandidate := hc.evolves (hspares hattach).evolves
      (fun u hu => Nat.lt_trans (hsuper u hu) hc.lt) hpending
    obtain ⟨rfl, rfl, hend⟩ := runs_conclude_compare hcandidate hne hrest
    have hinherited : (T.publish c (T.resolve c a)).inherited d.superType =
        T.inherited d.superType := by
      refine Store.inherited_publish ?_ _
      rintro u hu rfl
      exact Nat.lt_irrefl _ (hsuper c hu)
    refine ⟨.ok a, T, ?_, ?_, nofun, ?_⟩
    · rw [List.append_nil]
      exact hattach
    · rw [Store.type_publish_of_ne hne.symm, htype]
    · rintro _ ⟨⟩
      rw [hinherited, ← htype]
      exact hend

/-- A definition of a finalized type, to its end: a candidate is attached to and compared. -/
lemma runs_redefinition (hs : s.HasTable r) (hd : d.inspector = .prefab)
    (hsuper : ∀ u, d.superType = some u → u.index < s.types.size) (hne : d.properties ≠ [])
    (ht : s.typeFor? r (s.declaredKey r d) = some t) (hfinal : (s.type t).isFinalized)
    (hunrestricted : s.prefabRestriction? d = none) {type : RecordType}
    (hl : (s.internDeclared r d).layOut d = .ok type)
    (hR : ∀ s₁ s₂, R s₁ s₂ → s₁.Spares ⟨s.types.size⟩ s₂)
    (h : (settleDeclaration r d).Runs R s calls out s') :
    ∃ s₁ attached T, s.Retains r s₁ ∧ s₁.properties = s.properties ∧
      s₁.IsCandidate d ⟨s.types.size⟩ ∧
      (attachAll ⟨s.types.size⟩ d.properties none).Runs R s₁ calls attached T ∧
      s'.type t = s.type t ∧ (∀ e, attached = .error e → out = .error e) ∧
      ∀ a, attached = .ok a →
        (Matches (a.bindings ++ s'.inherited d.superType) (s.type t).properties ∧
            out = .ok ⟨t, a.bindings, none⟩ ∨
          ¬Matches (a.bindings ++ s'.inherited d.superType) (s.type t).properties ∧
            ∃ e, out = .error e) := by
  have hlt := hs.lt_of_typeFor? _ t ht
  have hprepare := run_prepare_of_finalized hd hne ht hfinal
  simp only [hunrestricted, hl] at hprepare
  have hretains := (ensures_prepare (permits_retains r) r d s).advance
  rw [hprepare] at hretains
  rw [runs_settleDeclaration_iff hprepare] at h
  have htype := (s.internDeclared r d).type_push_of_lt (t := type) hlt
  have hcandidate := Store.isCandidate_push hl hsuper
  obtain ⟨attached, T, hattach, hsame, herror, hok⟩ :=
    runs_compare hR hcandidate hsuper hlt (by rw [htype]; exact hfinal) h
  rw [htype] at hsame hok
  exact ⟨_, attached, T, hretains, rfl, hcandidate, hattach, hsame, herror, hok⟩

/-- A definition of a finalized prefab type that is answered, whatever was done meanwhile to all
but the candidate, is answered with this type, and the type holds every property that was
declared, derived or inherited, with an equal value. It holds no other property exactly if both
lists repeat properties equally often. -/
theorem redefinition_sameMap_iff (hs : s.HasTable r) (hd : d.inspector = .prefab)
    (hsuper : ∀ u, d.superType = some u → u.index < s.types.size) (hne : d.properties ≠ [])
    (ht : s.typeFor? r (s.declaredKey r d) = some t) (hfinal : (s.type t).isFinalized)
    (h : (settleDeclaration r d).Runs (Store.Spares ⟨s.types.size⟩) s calls (.ok answer) s') :
    answer.type = t ∧ s'.type t = s.type t ∧
    (∀ x ∈ answer.bindings ++ s'.inherited d.superType,
      ∃ w, bindingOf (s.type t).properties x.1 = some w ∧ w == x.2) ∧
    (SameMap (answer.bindings ++ s'.inherited d.superType) (s.type t).properties ↔
      repeats (answer.bindings ++ s'.inherited d.superType) =
        repeats (s.type t).properties) := by
  have hprepare := run_prepare_of_finalized hd hne ht hfinal
  cases hr : s.prefabRestriction? d with
  | some what =>
    rw [hr] at hprepare
    exact absurd h (not_runs_settleDeclaration hprepare)
  | none =>
    cases hl : (s.internDeclared r d).layOut d with
    | error e =>
      simp only [hr, hl] at hprepare
      exact absurd h (not_runs_settleDeclaration hprepare)
    | ok type =>
      obtain ⟨_, attached, _, -, -, -, -, hsame, herror, hok⟩ :=
        runs_redefinition hs hd hsuper hne ht hfinal hr hl (fun _ _ hmove => hmove) h
      cases attached with
      | error e => cases herror e rfl
      | ok a =>
        rcases hok a rfl with ⟨hmatches, ⟨⟩⟩ | ⟨-, e, he⟩
        · exact ⟨rfl, hsame, hmatches.held, sameMap_iff_repeats hmatches⟩
        · cases he

end

/-! ### A comparison that passes by repetition -/

/-- A prefab type with one property. -/
def baseDeclaration : Declaration where
  name := ⟨"base"⟩
  properties := [(⟨3⟩, .ofNat 1)]
  inspector := .prefab

/-- A prefab type below it. -/
def heirDeclaration (p : PropertyId) (v : Value) : Declaration where
  name := ⟨"sub"⟩
  superType := some ⟨0⟩
  properties := [(p, v)]
  inspector := .prefab

/-- Both types are defined, the second one with a property of its own. -/
def heirSession : Session :=
  (Session.initial.begin ⟨0⟩ baseDeclaration).begin ⟨0⟩ (heirDeclaration ⟨4⟩ (.ofNat 2))

lemma reachable_heirSession : heirSession.Reachable ⟨0⟩ := by
  have hbase := Session.reachable_initial.step (.begin baseDeclaration fun _ t ht => by cases ht)
  refine hbase.step (.begin (heirDeclaration ⟨4⟩ (.ofNat 2)) fun _ t ht => ?_)
  cases ht
  exact .inr ⟨_, List.mem_cons_self, rfl⟩

/-- A declaration of the second type is about its structure. -/
lemma typeFor?_heirSession (p : PropertyId) (v : Value) :
    heirSession.store.typeFor? ⟨0⟩ (heirSession.store.declaredKey ⟨0⟩ (heirDeclaration p v)) =
      some ⟨1⟩ := rfl

lemma superType_heirDeclaration (p : PropertyId) (v : Value) :
    ∀ u, (heirDeclaration p v).superType = some u → u.index < heirSession.store.types.size := by
  rintro u ⟨⟩
  decide

/-- The second type is defined with the same property again, or with that of the first type. -/
lemma exists_runs_heirSession {R : Store → Store → Prop} :
    (∃ s', (settleDeclaration ⟨0⟩ (heirDeclaration ⟨4⟩ (.ofNat 2))).Runs R heirSession.store []
        (.ok ⟨⟨1⟩, [(⟨4⟩, .ofNat 2)], none⟩) s' ∧
      s'.inherited (some ⟨0⟩) = [(⟨3⟩, .ofNat 1)]) ∧
    ∃ s', (settleDeclaration ⟨0⟩ (heirDeclaration ⟨3⟩ (.ofNat 1))).Runs R heirSession.store []
        (.ok ⟨⟨1⟩, [(⟨3⟩, .ofNat 1)], none⟩) s' ∧
      s'.inherited (some ⟨0⟩) = [(⟨3⟩, .ofNat 1)] :=
  ⟨⟨_, Computation.runs_iff_of_advance.2 ⟨rfl, rfl, rfl⟩, rfl⟩,
    ⟨_, Computation.runs_iff_of_advance.2 ⟨rfl, rfl, rfl⟩, rfl⟩⟩

/-- The second type is defined once more, with its own property next to the inherited one. -/
theorem redefinition_sameMap_iff_heir :
    ∃ s', (settleDeclaration ⟨0⟩ (heirDeclaration ⟨4⟩ (.ofNat 2))).Runs
        (Store.Spares ⟨heirSession.store.types.size⟩) heirSession.store []
        (.ok ⟨⟨1⟩, [(⟨4⟩, .ofNat 2)], none⟩) s' ∧
      s'.type ⟨1⟩ = heirSession.store.type ⟨1⟩ ∧
      (∀ x ∈ [(⟨4⟩, .ofNat 2)] ++ s'.inherited (some ⟨0⟩),
        ∃ w, bindingOf (heirSession.store.type ⟨1⟩).properties x.1 = some w ∧ w == x.2) ∧
      (SameMap ([(⟨4⟩, .ofNat 2)] ++ s'.inherited (some ⟨0⟩))
          (heirSession.store.type ⟨1⟩).properties ↔
        repeats ([(⟨4⟩, .ofNat 2)] ++ s'.inherited (some ⟨0⟩)) =
          repeats (heirSession.store.type ⟨1⟩).properties) ∧
      repeats ([(⟨4⟩, .ofNat 2)] ++ s'.inherited (some ⟨0⟩)) =
        repeats (heirSession.store.type ⟨1⟩).properties := by
  obtain ⟨⟨s', hruns, hinherited⟩, -⟩ := exists_runs_heirSession
  obtain ⟨-, htype, hheld, hiff⟩ := redefinition_sameMap_iff
    reachable_heirSession.sound.coherent.hasTable rfl (superType_heirDeclaration _ _)
    (List.cons_ne_nil _ _) (typeFor?_heirSession _ _) rfl hruns
  refine ⟨s', hruns, htype, hheld, hiff, ?_⟩
  rw [hinherited]
  rfl

/-- The second type passes for a type with the property of the first type only, which the
candidate lists twice. -/
theorem exists_redefinition_not_sameMap :
    ∃ (S : Session) (d : Declaration) (answer : Settled) (s' : Store), S.Reachable ⟨0⟩ ∧
      d.inspector = .prefab ∧ d.properties ≠ [] ∧
      S.store.typeFor? ⟨0⟩ (S.store.declaredKey ⟨0⟩ d) = some answer.type ∧
      (S.store.type answer.type).isFinalized ∧
      (settleDeclaration ⟨0⟩ d).Runs Eq S.store [] (.ok answer) s' ∧
      ¬SameMap (answer.bindings ++ s'.inherited d.superType)
        (S.store.type answer.type).properties := by
  obtain ⟨-, s', hruns, hinherited⟩ := exists_runs_heirSession
  refine ⟨heirSession, heirDeclaration ⟨3⟩ (.ofNat 1), _, s', reachable_heirSession, rfl,
    List.cons_ne_nil _ _, typeFor?_heirSession _ _, rfl, hruns, fun hsame => ?_⟩
  have hkeys := hsame.keys ⟨4⟩
  rw [show (heirDeclaration ⟨3⟩ (.ofNat 1)).superType = some ⟨0⟩ from rfl, hinherited] at hkeys
  cases hkeys

end Records
