import Records.Proofs.Registry.FieldRange
import Records.Proofs.Registry.Usage

/-!
# What definitions deliver

A definition is answered with a type that is laid out as declared, or, if it is one of a prefab
type, with a type of the declared structure that is registered already. The structure does not say
which type the super type is, and what the constructor is called, so a type that was there may
differ from the declaration in these. Its super type is the declared one in a registry that was
only handed super types that it answered since it was last reset.

## Main definitions

* `RecordType.Meets`: a type has what is declared, other than its super type and constructor name.
* `Store.Delivers`: a declaration is answered with a type, that is new or was there.

## Main statements

* `Store.Ledger.reuses`: what a registered type has in common with a declaration of its structure.
* `Usage.Reachable.define_delivers`: what a definition is answered with, in all states of a
  registry and whatever happens in its calls.
-/

namespace Records

variable {r : RegistryId} {s s' s₁ : Store} {issued : List PrefabKey} {d : Declaration}
  {t : TypeId} {type : RecordType} {plan : Plan} {calls : List Exchange} {values : List Value}

/-! ### Types as declared -/

/-- The immutable fields of a declared type: those that are listed and are there, and those that
the procedure is designated by. -/
def Declaration.frozen (d : Declaration) : FieldSet :=
  .ofList (d.inRange.immutables ++ d.designations.filterMap Value.index?)

lemma Declaration.mem_frozen {i : Nat} :
    i ∈ d.frozen ↔ i ∈ d.immutables ∧ i < d.initCount ∨
      ∃ v ∈ d.designations, v.index? = some i := by
  simp only [frozen, inRange, FieldSet.mem_ofList, List.mem_append, List.mem_filter,
    decide_eq_true_eq, List.mem_filterMap]

/-- A type has what is declared, other than its super type and the name of its constructor. -/
structure RecordType.Meets (t : RecordType) (d : Declaration) : Prop where
  name : t.name = d.name
  initCount : t.initCount = d.initCount
  autoCount : t.autoCount = d.autoCount
  autoValue : t.autoValue == d.autoValue
  inspector : t.inspector = d.inspector
  guard : t.guard = d.guard
  immutables : t.immutables = d.frozen

/-- A type has the declared super type and the declared name of its constructor as well. -/
structure RecordType.MeetsAll (t : RecordType) (d : Declaration) : Prop extends t.Meets d where
  superType : t.superType = d.superType
  constructorName : t.constructorName = d.constructorSymbol

lemma RecordType.Meets.of_layout (h : type.Meets d) {other : RecordType}
    (hlayout : other.layout = type.layout) : other.Meets d where
  name := (congrArg RecordType.name hlayout).trans h.name
  initCount := (congrArg RecordType.initCount hlayout).trans h.initCount
  autoCount := (congrArg RecordType.autoCount hlayout).trans h.autoCount
  autoValue := (congrArg (fun t => t.autoValue == d.autoValue) hlayout).trans h.autoValue
  inspector := (congrArg RecordType.inspector hlayout).trans h.inspector
  guard := (congrArg RecordType.guard hlayout).trans h.guard
  immutables := (congrArg RecordType.immutables hlayout).trans h.immutables

namespace Store

lemma meetsAll_of_layOut (hl : s.layOut d = .ok type) : type.MeetsAll d := by
  obtain ⟨immutables, himmutables, rfl⟩ := layOut_eq_ok_iff.1 hl
  obtain ⟨hlt, hmem⟩ := mem_declaredImmutables himmutables
  refine ⟨⟨rfl, rfl, rfl, Value.same_refl _, rfl, rfl, FieldSet.ext_mem fun i => ?_⟩, rfl, rfl⟩
  rw [Declaration.mem_frozen, hmem]
  constructor
  · rintro (hi | hi)
    · exact .inl ⟨hi, hlt i ((hmem i).2 (.inl hi))⟩
    · exact .inr hi
  · exact Or.imp_left And.left

/-! ### Types that are there -/

/-- A prefab declaration keeps to the restrictions, and a type of its structure is registered. -/
structure Reuses (s : Store) (r : RegistryId) (d : Declaration) (t : TypeId) : Prop where
  prefabType : d.inspector = .prefab
  unrestricted : s.prefabRestriction? d = none
  registered : s.typeFor? r (s.declaredKey r d) = some t
  inherits : SameChain (s.inheritedLevels (s.type t).superType) (s.inheritedLevels d.superType)

/-- A key of a declared structure has its mutable fields among its init fields. -/
lemma bounded_declaredKey (h : SameChain (s.declaredKey r d).levels (s.declaredLevels d)) :
    (s.declaredKey r d).Bounded :=
  h.bounded (List.forall_mem_cons.2 ⟨d.bounded_prefabLevel, bounded_inheritedLevels s d.superType⟩)

/-- The type that is registered for the structure of a declaration has what is declared, on top of
a super type that has the structure of the declared one. -/
theorem Ledger.reuses (h : s.Ledger r issued) (hd : d.inspector = .prefab)
    (hr : s.prefabRestriction? d = none) (ht : s.typeFor? r (s.declaredKey r d) = some t) :
    (s.type t).Meets d ∧ s.Reuses r d t := by
  obtain ⟨hmem, hkey⟩ := h.declaredKey d
  have hissued := ((s.keeps_internDeclared r d) h.toFounded).ledger issued h
  have he : s.Enlarges (s.internDeclared r d) := .of_types_eq rfl
  have hhonours : s.Honours (s.declaredKey r d) t :=
    (he.evolves.honours_iff hissued.ordered (h.lt_of_typeFor? _ t ht)).1 <|
      hissued.honours _ (List.mem_append_left _ hmem) (bounded_declaredKey hkey) t
        ((s.typeFor?_internDeclared r d _).trans ht)
  have hchain : SameChain (s.prefabLevels t) (s.declaredLevels d) := hhonours.symm.trans hkey
  rw [h.ordered.prefabLevels_eq, declaredLevels, SameChain.cons_iff] at hchain
  obtain ⟨hlevel, hinherits⟩ := hchain
  obtain ⟨hname, hinit, hauto, hvalue, hmutables⟩ := PrefabLevel.same_iff.1 hlevel
  have hregistrable := h.registrable _ t ht
  refine ⟨⟨hname, hinit, hauto, hvalue, ?_, ?_, ?_⟩, hd, hr, ht, hinherits⟩
  · rw [hd]
    exact of_decide_eq_true hregistrable.prefabType
  · rw [hregistrable.guard, guard_of_prefabRestriction? hr]
  · have himmutables : (s.type t).immutables =
        ((FieldSet.ofList d.immutables).complement d.initCount).complement d.initCount := by
      rw [← FieldSet.complement_complement hregistrable.immutables]
      exact congrArg₂ FieldSet.complement hmutables hinit
    refine FieldSet.ext_mem fun i => ?_
    rw [himmutables, Declaration.mem_frozen, (prefabRestriction?_eq_none hr).2]
    simp only [FieldSet.mem_complement, FieldSet.mem_ofList, not_and, not_not, List.not_mem_nil,
      false_and, exists_false, or_false]
    constructor
    · rintro ⟨hlt, hi⟩
      exact ⟨hi hlt, hlt⟩
    · rintro ⟨hi, hlt⟩
      exact ⟨hlt, fun _ => hi⟩

/-! ### Answers -/

/-- What a declaration is answered with: a new type that is all as declared, or a prefab type that
was there, and is as it was. -/
structure Delivers (s : Store) (r : RegistryId) (d : Declaration) (t : TypeId) (s' : Store) :
    Prop where
  lt : t.index < s'.types.size
  meets : (s'.type t).Meets d
  new : s.types.size ≤ t.index → (s'.type t).MeetsAll d
  old : t.index < s.types.size → s.Reuses r d t ∧ (s'.type t).layout = (s.type t).layout

namespace Delivers

lemma of_layOut (hl : s₁.layOut d = .ok type) (hsize : s.types.size ≤ t.index)
    (hlt : t.index < s'.types.size) (htype : s'.type t = type) : s.Delivers r d t s' := by
  have hmeets : (s'.type t).MeetsAll d := by
    rw [htype]
    exact meetsAll_of_layOut hl
  exact ⟨hlt, hmeets.toMeets, fun _ => hmeets, fun hold => absurd hold (Nat.not_lt.2 hsize)⟩

/-- What was delivered stays as it is. -/
lemma evolves (h : s.Delivers r d t s₁) (he : s₁.Evolves s') : s.Delivers r d t s' := by
  have hlayout := he.layout t h.lt
  refine ⟨he.lt h.lt, h.meets.of_layout hlayout, fun hnew => ?_, fun hold => ?_⟩
  · obtain ⟨hmeets, hsuperType, hname⟩ := h.new hnew
    exact ⟨hmeets.of_layout hlayout, (congrArg RecordType.superType hlayout).trans hsuperType,
      (congrArg RecordType.constructorName hlayout).trans hname⟩
  · obtain ⟨hreuses, hsame⟩ := h.old hold
    exact ⟨hreuses, hlayout.trans hsame⟩

end Delivers

/-- A registry that keeps a ledger finds the type of a prefab declaration, or registers a new one
that is laid out as declared. -/
lemma Ledger.ensures_prefabTypeOfDeclaration (h : s.Ledger r issued) (hd : d.inspector = .prefab) :
    (prefabTypeOfDeclaration r d).Ensures Evolves (s.Delivers r d) s := by
  have he : s.Enlarges (s.internDeclared r d) := .of_types_eq rfl
  rw [StoreM.Ensures, run_prefabTypeOfDeclaration]
  cases hr : s.prefabRestriction? d with
  | some what => exact ⟨.refl s, fun t ht => by cases ht⟩
  | none =>
    cases ht : s.typeFor? r (s.declaredKey r d) with
    | some t =>
      refine ⟨he.evolves, ?_⟩
      rintro _ ⟨⟩
      have hlt := h.lt_of_typeFor? _ t ht
      obtain ⟨hmeets, hreuses⟩ := h.reuses hd hr ht
      exact ⟨hlt, hmeets, fun hnew => absurd hlt (Nat.not_lt.2 hnew), fun _ => ⟨hreuses, rfl⟩⟩
    | none =>
      simp only [run_declare_register]
      cases hl : (s.internDeclared r d).layOut d with
      | error c => exact ⟨he.evolves, fun t ht => by cases ht⟩
      | ok type =>
        have henroll := (s.internDeclared r d).enlarges_enroll r (s.declaredKey r d) type
        refine ⟨he.evolves.trans henroll.evolves, ?_⟩
        rintro _ ⟨⟩
        have hregistrant := registrant_of_none ((s.typeFor?_internDeclared r d _).trans ht)
        have hlt : s.types.size < (s.types.push type).size := by simp
        rw [hregistrant]
        exact .of_layOut hl (Nat.le_refl _) hlt (type_enroll_self _ r _ type)

end Store

lemma ensures_declare_delivers (r : RegistryId) (d : Declaration) (s : Store) :
    (declare d).Ensures Store.Evolves (s.Delivers r d) s := by
  rw [StoreM.Ensures, run_declare]
  cases hl : s.layOut d with
  | error c => exact ⟨.refl s, fun t ht => by cases ht⟩
  | ok type =>
    refine ⟨(Store.Enlarges.push_type s type).evolves, ?_⟩
    rintro _ ⟨⟩
    exact .of_layOut hl (Nat.le_refl _) (by simp) (Store.type_push_self s type)

/-- The plan of a declaration is about the type that is delivered. -/
lemma Store.Ledger.ensures_prepare_delivers (h : s.Ledger r issued) (d : Declaration) :
    (prepare r d).Ensures Store.Evolves (fun plan => s.Delivers r d plan.type) s := by
  unfold prepare
  by_cases hd : d.inspector = .prefab
  · rw [if_pos hd]
    refine .bind (.ofStoreM (h.ensures_prefabTypeOfDeclaration hd)) fun t s₁ hdelivers => ?_
    refine .bind (.ofStoreM (StoreM.ensures_get s₁)) ?_
    rintro _ s₂ ⟨rfl, rfl⟩
    split
    · split
      · exact hdelivers
      · -- the candidate for the comparison is not what is delivered
        obtain ⟨hevolves, -⟩ := ensures_declare_delivers r d s₂
        have hcandidate : (declare d).Ensures Store.Evolves (fun _ => s.Delivers r d t) s₂ :=
          ⟨hevolves, fun _ _ => hdelivers.evolves hevolves⟩
        exact .bind (.ofStoreM hcandidate) fun _ _ hkept => hkept
    · exact hdelivers
  · rw [if_neg hd]
    exact .bind (.ofStoreM (ensures_declare_delivers r d s)) fun _ _ hdelivers => hdelivers

/-- A definition is answered with the type of its plan, as it is in all later states. -/
lemma exists_type_of_runs_define {Q : TypeId → Store → Prop}
    (hQ : ∀ t s s', Q t s → s.Evolves s' → Q t s')
    (hprepare : (prepare r d).Ensures Store.Evolves (fun plan => Q plan.type) s)
    (h : (define r d).Runs Store.Evolves s calls (.ok values) s') :
    ∃ t, values = definition t ∧ Q t s' := by
  rw [define_eq_settleDeclaration, Computation.runs_map_iff] at h
  obtain ⟨_ | answer, hsettle, hvalues⟩ := h <;> cases hvalues
  rcases Computation.runs_bind_iff.1 hsettle with
    ⟨_, -, he⟩ | ⟨plan, s₁, _, _, hplan, hrest, rfl⟩
  · cases he
  rcases Computation.runs_bind_iff.1 hrest with
    ⟨_, -, he⟩ | ⟨a, s₂, _, _, hattach, hconclude, rfl⟩
  · cases he
  obtain ⟨-, hplanned⟩ := hprepare.of_runs hplan
  obtain ⟨hattached, -⟩ := (plan.onlyReads_attachment d s₁).ensures.of_runs hattach
  have hensures : (plan.conclude d a).Ensures Store.Evolves (fun _ _ => True) s₂ :=
    plan.ensures_conclude (fun s t _ => .publish s t _) s₂
  obtain ⟨hconcluded, -⟩ := hensures.of_runs hconclude
  exact ⟨plan.type, congrArg definition (answered_of_runs_conclude hconclude).1,
    hQ _ _ _ (hplanned plan rfl) (hattached.trans hconcluded)⟩

/-! ### Super types -/

lemma Store.declaredLevels_internDeclared (s : Store) (r : RegistryId) (d : Declaration) :
    (s.internDeclared r d).declaredLevels d = s.declaredLevels d := by
  unfold declaredLevels
  cases d.superType with
  | none => rfl
  | some u => exact congrArg (d.prefabLevel :: ·) ((s.alike_updateCatalog r _).prefabLevels_eq u)

namespace Session

variable {S : Session}

/-- In a registry that was only handed super types that it answered since it was last reset, a
type that is reused has the declared super type. -/
lemma Reachable.superType_eq (h : S.Reachable r) (hreuses : S.store.Reuses r d t)
    (hsuper : ∀ u, d.superType = some u → S.Returned u) :
    (S.store.type t).superType = d.superType := by
  obtain ⟨hd, hr, ht, -⟩ := hreuses
  have hsound := h.sound
  have hregistered := hsound.superRegistered hsuper
  obtain ⟨hadvances, hfinds⟩ := prefabTypeOfDeclaration_ensures hsound.coherent hd hregistered
  have hrun : (prefabTypeOfDeclaration r d).run S.store = (.ok t, S.store.internDeclared r d) := by
    rw [run_prefabTypeOfDeclaration, hr, ht]
  rw [hrun] at hadvances hfinds
  have hgrows := hadvances hsound.coherent
  have htype : (S.store.internDeclared r d).IsTypeOf r (S.store.declaredLevels d) t := hfinds t rfl
  rw [← S.store.declaredLevels_internDeclared r d] at htype
  refine hgrows.coherent.superType_eq htype fun u hu => ?_
  obtain ⟨levels, hlevels⟩ := hregistered u hu ((Store.prefabRestriction?_eq_none hr).1 u hu)
  exact ⟨levels, hlevels.mono hgrows.catalog⟩

end Session

namespace Usage

variable {U : Usage} {Handed : Usage → PrefabKey → Prop}

/-- In every state of a registry that is handed its own keys only, a definition that is answered is
answered with a type that has what is declared, whatever happens in the calls. A type that is new
has the declared super type and the declared constructor name, too. A type that was there has a
super type of the declared structure. It is the declared one in a session since the last reset
that was only handed super types that it had answered. -/
theorem Reachable.define_delivers (h : U.Reachable r Handed) (hown : Handed ≤ Issued)
    (hruns : (define r d).Runs Store.Evolves U.store calls (.ok values) s') :
    ∃ t, values = definition t ∧ U.store.Delivers r d t s' ∧
      ∀ S : Session, S.Reachable r → S.store = U.store →
        (∀ u, d.superType = some u → S.Returned u) → (s'.type t).superType = d.superType := by
  have hledger := h.sound.ledger hown
  obtain ⟨t, hvalues, hdelivers⟩ := exists_type_of_runs_define
    (fun _ _ _ hdelivers he => hdelivers.evolves he) (hledger.ensures_prepare_delivers d) hruns
  refine ⟨t, hvalues, hdelivers, fun S hS hstore hsuper => ?_⟩
  rcases Nat.lt_or_ge t.index U.store.types.size with hold | hnew
  · obtain ⟨hreuses, hlayout⟩ := hdelivers.old hold
    have hsame := hS.superType_eq (hstore ▸ hreuses) hsuper
    rw [hstore] at hsame
    exact (congrArg RecordType.superType hlayout).trans hsame
  · exact (hdelivers.new hnew).superType

end Usage

/-! ### A type that is there and a new one -/

/-- The key of a point. -/
def planeDatum : Value := .list [.ofName "pt", .ofNat 2]

/-- The key of a point with one more field. -/
def spaceDatum : Value := .list [.ofName "pt3", .ofNat 1, .ofName "pt", .ofNat 2]

/-- A declaration of that structure, with a constructor name of its own. -/
def spaceDeclaration : Declaration where
  name := ⟨"pt3"⟩
  superType := some ⟨0⟩
  initCount := 1
  inspector := .prefab
  immutables := [0]
  constructorName := some ⟨"mk"⟩

/-- A declaration of one more field on top of the first type. -/
def wideDeclaration : Declaration := { spaceDeclaration with initCount := 2 }

/-- A session in which both types were asked for. -/
def Session.spaced : Session :=
  let ask (datum : Value) (S : Session) : Session :=
    S.ask (prefabTypeOfDatum ⟨0⟩ datum 0)
      fun t _ => [((PrefabDatum.levelsFor? datum 0).getD [], t)]
  ask spaceDatum (ask planeDatum Session.initial)

namespace Usage

/-- The registry of that session. -/
def spaced : Usage :=
  let ask (datum : Value) (U : Usage) : Usage :=
    U.moveTo ⟨0⟩ ((Request.prefabTypeOfDatum datum 0).perform ⟨0⟩ U.store)
  ask spaceDatum (ask planeDatum { store := Session.initial.store })

lemma reachable_spaced : spaced.Reachable ⟨0⟩ Issued :=
  .request (.prefabTypeOfDatum spaceDatum 0)
    (.request (.prefabTypeOfDatum planeDatum 0) reachable_initial nofun) nofun

/-- The declared structure is delivered by the type that is there. With one more field it is
delivered by a new type. -/
theorem Reachable.define_delivers_spaced :
    spaced.Reachable ⟨0⟩ Issued ∧ Session.spaced.Reachable ⟨0⟩ ∧
      Session.spaced.store = spaced.store ∧ Session.spaced.Returned ⟨0⟩ ∧
      (∃ s' t, (define ⟨0⟩ spaceDeclaration).Runs Store.Evolves spaced.store []
          (.ok (definition t)) s' ∧
        spaced.store.Delivers ⟨0⟩ spaceDeclaration t s' ∧
        spaced.store.Reuses ⟨0⟩ spaceDeclaration t ∧ (s'.type t).superType = some ⟨0⟩) ∧
      ∃ s' t, (define ⟨0⟩ wideDeclaration).Runs Store.Evolves spaced.store []
          (.ok (definition t)) s' ∧
        spaced.store.Delivers ⟨0⟩ wideDeclaration t s' ∧
        (s'.type t).MeetsAll wideDeclaration := by
  have hsession : Session.spaced.Reachable ⟨0⟩ :=
    .step (.step Session.reachable_initial (.prefabTypeOfDatum planeDatum 0))
      (.prefabTypeOfDatum spaceDatum 0)
  have hreturned : Session.spaced.Returned ⟨0⟩ :=
    .inr ⟨_, List.mem_cons_of_mem _ List.mem_cons_self, rfl⟩
  refine ⟨reachable_spaced, hsession, rfl, hreturned, ?_, ?_⟩
  · obtain ⟨s', hruns⟩ : ∃ s', (define ⟨0⟩ spaceDeclaration).Runs Store.Evolves spaced.store []
        (.ok (definition ⟨1⟩)) s' := by
      rw [define_eq_phases]
      exact ⟨_, Computation.runs_iff_of_advance.2 ⟨rfl, rfl, rfl⟩⟩
    obtain ⟨t, hvalues, hdelivers, hsuperType⟩ := reachable_spaced.define_delivers le_rfl hruns
    have hsuper := hsuperType Session.spaced hsession rfl fun u hu => by
      cases hu
      exact hreturned
    cases hvalues
    exact ⟨s', ⟨1⟩, hruns, hdelivers, (hdelivers.old (by decide)).1, hsuper⟩
  · obtain ⟨s', hruns⟩ : ∃ s', (define ⟨0⟩ wideDeclaration).Runs Store.Evolves spaced.store []
        (.ok (definition ⟨2⟩)) s' := by
      rw [define_eq_phases]
      exact ⟨_, Computation.runs_iff_of_advance.2 ⟨rfl, rfl, rfl⟩⟩
    obtain ⟨t, hvalues, hdelivers, -⟩ := reachable_spaced.define_delivers le_rfl hruns
    cases hvalues
    exact ⟨s', ⟨2⟩, hruns, hdelivers, hdelivers.new (by decide)⟩

end Usage

/-! ### Another super type -/

/-- The type without fields. -/
def baseDatum : Value := .list [.ofName "base", .ofNat 0]

/-- The key of a type on top of it. -/
def subDatum : Value := .list [.ofName "sub", .ofNat 0, .ofName "base", .ofNat 0]

/-- The same structure on top of the first type, with a constructor name of its own. -/
def subOfBase : Declaration where
  name := ⟨"sub"⟩
  superType := some ⟨0⟩
  inspector := .prefab
  constructorName := some ⟨"mk"⟩

namespace Usage

/-- A registry that was asked for the type without fields. -/
def based : Usage :=
  let U : Usage := { store := Session.initial.store }
  U.moveTo ⟨0⟩ ((Request.prefabTypeOfDatum baseDatum 0).perform ⟨0⟩ U.store)

lemma reachable_based : based.Reachable ⟨0⟩ Issued :=
  .request (.prefabTypeOfDatum baseDatum 0) reachable_initial nofun

/-- The registry is reset, and a type of the declared structure is asked for by its key. -/
def renewed : Usage :=
  let U := based.moveTo ⟨0⟩ (Request.reset.perform ⟨0⟩ based.store)
  U.moveTo ⟨0⟩ ((Request.prefabTypeOfDatum subDatum 0).perform ⟨0⟩ U.store)

/-- The type is on top of another type of the same structure then, and its constructor has another
name. -/
theorem exists_other_super :
    renewed.Reachable ⟨0⟩ Issued ∧
      (prefabTypeOfDatum ⟨0⟩ baseDatum 0).run Session.initial.store = (.ok ⟨0⟩, based.store) ∧
      subOfBase.superType = some ⟨0⟩ ∧
      ∃ s' t, (define ⟨0⟩ subOfBase).Runs Store.Evolves renewed.store []
          (.ok (definition t)) s' ∧
        (s'.type t).superType ≠ subOfBase.superType ∧
        (s'.type t).constructorName ≠ subOfBase.constructorSymbol := by
  have hreachable : renewed.Reachable ⟨0⟩ Issued :=
    .request (.prefabTypeOfDatum subDatum 0) (.request .reset reachable_based nofun) nofun
  rw [define_eq_phases]
  refine ⟨hreachable, rfl, rfl, _, ⟨2⟩, Computation.runs_iff_of_advance.2 ⟨rfl, rfl, rfl⟩, ?_, ?_⟩
  · decide
  · decide

end Usage

end Records
