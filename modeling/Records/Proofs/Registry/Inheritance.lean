import Records.Proofs.Registry.Closed
import Records.Proofs.Registry.Publication

/-!
# Inheritance of properties

A type takes over what its super type holds when it is finalized itself. A super type that is
still pending then has nothing to give, and what it holds later does not get through. What is
taken over is put behind the bindings of the type's own definition, whether or not these bind
the same properties.

## Main definitions

* `Session.Layers`: the definitions along a chain that a type has its properties from.

## Main statements

* `Session.Closed.propertyValue?_eq`: which value of a property a type holds.
* `Session.Closed.distinct_properties_iff`: when a type lists no property twice.
-/

namespace Records

lemma RecordType.properties_of_pending {t : RecordType} (h : ¬t.isFinalized) :
    t.properties = [] := by
  rw [isFinalized, Option.not_isSome_iff_eq_none] at h
  rw [properties, h]

namespace Session

variable {S S' : Session} {t u : TypeId}

/-! ### The value of a property -/

/-- In every state of a closed session a finalized type has a moment at which it was finalized. It
holds what the definition that finalized it attached, and of all other properties what its super
type holds, if the super type was finalized before that moment; otherwise it does not hold any. -/
theorem Closed.propertyValue?_eq (h : S.Closed) (hfinal : (S.store.type t).isFinalized)
    (hsuper : (S.store.type t).superType = some u) :
    (∃ before bindings, S.FinalizedAt t before bindings) ∧
    ∀ before bindings, S.FinalizedAt t before bindings → ∀ p,
      (∀ v, bindingOf bindings p = some v → (S.store.type t).propertyValue? p = some v) ∧
      (bindingOf bindings p = none → (S.store.type t).propertyValue? p =
        if (before.store.type u).isFinalized then (S.store.type u).propertyValue? p else none) := by
  refine ⟨?_, fun before bindings hmoment p => ?_⟩
  · refine h.induction_on_finalized (P := fun S t => ∃ before bindings,
      S.FinalizedAt t before bindings) ?_ ?_ t hfinal
    · intro S S' t bindings hclosed hstep hfinalizes _
      exact ⟨S, bindings, hclosed, S', hstep, hfinalizes, .refl⟩
    · rintro S S' t hstep - ⟨before, bindings, hmoment⟩
      exact ⟨before, bindings, hmoment.tail hstep⟩
  · have hvalue : (S.store.type t).propertyValue? p =
        (bindingOf bindings p).or ((before.store.type u).propertyValue? p) := by
      rw [RecordType.propertyValue?, hmoment.properties_eq, hsuper, bindingOf_append]
      rfl
    constructor
    · intro v hv
      rw [hvalue, hv]
      rfl
    · intro hnone
      rw [hvalue, hnone, Option.none_or]
      split
      · rename_i hbefore
        rw [hmoment.type_eq hbefore]
      · rename_i hbefore
        rw [RecordType.propertyValue?, RecordType.properties_of_pending hbefore]
        rfl

/-! ### Where properties come from -/

/-- The bindings of the definitions that a type has its properties from, the type's own one
first: the chain is gone up as long as the super type was finalized before the type. -/
inductive Layers : Session → TypeId → List (List (PropertyId × Value)) → Prop where
  | top {S before : Session} {t : TypeId} {bindings : List (PropertyId × Value)}
      (hmoment : S.FinalizedAt t before bindings)
      (hsuper : ∀ u, (S.store.type t).superType = some u → ¬(before.store.type u).isFinalized) :
      Layers S t [bindings]
  | sub {S before : Session} {t u : TypeId} {bindings : List (PropertyId × Value)}
      {layers : List (List (PropertyId × Value))} (hmoment : S.FinalizedAt t before bindings)
      (hsuper : (S.store.type t).superType = some u) (hfinal : (before.store.type u).isFinalized)
      (hlayers : Layers before u layers) : Layers S t (bindings :: layers)

namespace Layers

variable {layers : List (List (PropertyId × Value))}

lemma step (h : Layers S t layers) (hstep : OwnStep S S')
    (htype : S'.store.type t = S.store.type t) : Layers S' t layers := by
  cases h with
  | top hmoment hsuper =>
    refine .top (hmoment.tail hstep) ?_
    rw [htype]
    exact hsuper
  | sub hmoment hsuper hfinal hlayers =>
    refine .sub (hmoment.tail hstep) ?_ hfinal hlayers
    rw [htype]
    exact hsuper

/-- A layer is what one definition has attached. -/
lemma distinct (h : Layers S t layers) : ∀ l ∈ layers, Distinct l := by
  induction h with
  | top hmoment _ => exact List.forall_mem_singleton.2 hmoment.distinct
  | sub hmoment _ _ _ ih => exact List.forall_mem_cons.2 ⟨hmoment.distinct, ih⟩

lemma properties_eq (h : Layers S t layers) :
    (S.store.type t).properties = layers.flatten := by
  induction h with
  | @top S before t bindings hmoment hsuper =>
    rw [hmoment.properties_eq, List.flatten_singleton]
    cases hu : (S.store.type t).superType with
    | none => exact List.append_nil bindings
    | some u =>
      have hpending := RecordType.properties_of_pending (hsuper u hu)
      show bindings ++ (before.store.type u).properties = bindings
      rw [hpending, List.append_nil]
  | sub hmoment hsuper _ _ ih =>
    rw [hmoment.properties_eq, hsuper, List.flatten_cons, ← ih]
    rfl

end Layers

lemma Closed.exists_layers (h : S.Closed) (hfinal : (S.store.type t).isFinalized) :
    ∃ layers, Layers S t layers := by
  refine h.induction_on_finalized (P := fun S t => ∃ layers, Layers S t layers) ?_ ?_ t hfinal
  · intro S S' t bindings hclosed hstep hfinalizes ih
    have hmoment : S'.FinalizedAt t S bindings := ⟨hclosed, S', hstep, hfinalizes, .refl⟩
    cases hsuper : (S'.store.type t).superType with
    | none =>
      refine ⟨[bindings], .top hmoment fun u hu => ?_⟩
      rw [hsuper] at hu
      cases hu
    | some u =>
      by_cases hu : (S.store.type u).isFinalized
      · obtain ⟨layers, hlayers⟩ := ih u hu
        exact ⟨bindings :: layers, .sub hmoment hsuper hu hlayers⟩
      · refine ⟨[bindings], .top hmoment fun v hv => ?_⟩
        rw [hsuper] at hv
        cases hv
        exact hu
  · rintro S S' t hstep htype ⟨layers, hlayers⟩
    exact ⟨layers, hlayers.step hstep htype⟩

/-- In every state of a closed session a finalized type lists the bindings of the definitions that
it has its properties from, one behind the other. Each of these definitions binds a property
once, so that the type lists a property twice exactly if two of them bind it. -/
theorem Closed.distinct_properties_iff (h : S.Closed)
    (hfinal : (S.store.type t).isFinalized) :
    (∃ layers, Layers S t layers) ∧
    ∀ layers, Layers S t layers →
      (S.store.type t).properties = layers.flatten ∧ (∀ l ∈ layers, Distinct l) ∧
      (Distinct (S.store.type t).properties ↔ layers.Pairwise Apart) := by
  refine ⟨h.exists_layers hfinal, fun layers hlayers => ?_⟩
  have hproperties := hlayers.properties_eq
  refine ⟨hproperties, hlayers.distinct, ?_⟩
  rw [hproperties]
  exact distinct_flatten_iff hlayers.distinct

/-! ### A prefab type and types below it -/

/-- The printed key of a prefab type of one mutable field. -/
def markedDatum : Value := .list [.symbol ⟨"pt"⟩, .ofNat 1, .vector [.ofNat 0]]

/-- A type below the first type of a session. -/
def subDeclaration (properties : List (PropertyId × Value)) : Declaration where
  name := ⟨"sub"⟩
  superType := some ⟨0⟩
  properties := properties

/-- A prefab type was asked for by its key, and is pending. -/
def askedSession : Session :=
  Session.initial.ask (Records.prefabTypeOfDatum ⟨0⟩ markedDatum 1)
    fun t _ => [((PrefabDatum.levelsFor? markedDatum 1).getD [], t)]

/-- A type is defined below the pending one, which is defined itself then. -/
def earlySession : Session :=
  (askedSession.begin ⟨0⟩ (subDeclaration [])).begin ⟨0⟩ (markedDeclaration ⟨3⟩ (.ofNat 1))

/-- Another type is defined below it. -/
def lateSession (properties : List (PropertyId × Value)) : Session :=
  earlySession.begin ⟨0⟩ (subDeclaration properties)

lemma closed_askedSession : askedSession.Closed := by
  have hstart : Session.initial.Closed := .start (Store.resolution_of_types_eq rfl)
  exact hstart.step (.prefabTypeOfDatum ⟨0⟩ markedDatum 1)

lemma closed_earlySession : earlySession.Closed :=
  (closed_askedSession.step (.begin ⟨0⟩ _)).step (.begin ⟨0⟩ _)

lemma closed_lateSession (properties : List (PropertyId × Value)) :
    (lateSession properties).Closed :=
  closed_earlySession.step (.begin ⟨0⟩ (subDeclaration properties))

/-- The type that was defined late holds what the prefab type holds, beside what is its own. -/
theorem Closed.propertyValue?_eq_late :
    (((lateSession [(⟨4⟩, .ofNat 2)]).store.type ⟨2⟩).isFinalized ∧
      ((lateSession [(⟨4⟩, .ofNat 2)]).store.type ⟨2⟩).superType = some ⟨0⟩ ∧
      ((lateSession [(⟨4⟩, .ofNat 2)]).store.type ⟨2⟩).properties =
        [(⟨4⟩, .ofNat 2), (⟨3⟩, .ofNat 1)]) ∧
    (∃ before bindings, (lateSession [(⟨4⟩, .ofNat 2)]).FinalizedAt ⟨2⟩ before bindings) ∧
    ∀ before bindings,
      (lateSession [(⟨4⟩, .ofNat 2)]).FinalizedAt ⟨2⟩ before bindings → ∀ p,
        (∀ v, bindingOf bindings p = some v →
          ((lateSession [(⟨4⟩, .ofNat 2)]).store.type ⟨2⟩).propertyValue? p = some v) ∧
        (bindingOf bindings p = none →
          ((lateSession [(⟨4⟩, .ofNat 2)]).store.type ⟨2⟩).propertyValue? p =
            if (before.store.type ⟨0⟩).isFinalized then
              ((lateSession [(⟨4⟩, .ofNat 2)]).store.type ⟨0⟩).propertyValue? p
            else none) :=
  ⟨⟨rfl, rfl, rfl⟩, (closed_lateSession _).propertyValue?_eq rfl rfl⟩

/-- The type that was defined early was finalized without properties, and does not hold what the
prefab type came to hold. -/
theorem exists_property_not_inherited :
    ∃ (S before : Session) (t u : TypeId) (p : PropertyId) (v : Value),
      S.Closed ∧ S.FinalizedAt t before [] ∧ (S.store.type t).isFinalized ∧
      (S.store.type t).superType = some u ∧ (S.store.type u).isFinalized ∧
      (S.store.type t).propertyValue? p = none ∧
      (S.store.type u).propertyValue? p = some v := by
  have horderly := closed_askedSession.orderly
  have hstep : OwnStep askedSession (askedSession.begin ⟨0⟩ (subDeclaration [])) := .begin ⟨0⟩ _
  obtain ⟨bindings, hfinalizes⟩ := hstep.finalizes (t := ⟨1⟩) horderly rfl rfl
  -- the type lists nothing, so nothing was attached to it
  obtain ⟨rfl, -⟩ := List.append_eq_nil_iff.1 (hfinalizes.properties_eq horderly).symm
  refine ⟨earlySession, askedSession, ⟨1⟩, ⟨0⟩, ⟨3⟩, .ofNat 1, closed_earlySession, ?_, rfl, rfl,
    rfl, rfl, rfl⟩
  exact ⟨closed_askedSession, _, hstep, hfinalizes, .single (.begin ⟨0⟩ _)⟩

/-- The type that binds the property of the prefab type again lists it twice. -/
theorem Closed.distinct_properties_iff_late :
    ((lateSession [(⟨3⟩, .ofNat 1)]).store.type ⟨2⟩).isFinalized ∧
    (∃ layers, Layers (lateSession [(⟨3⟩, .ofNat 1)]) ⟨2⟩ layers) ∧
    ∀ layers, Layers (lateSession [(⟨3⟩, .ofNat 1)]) ⟨2⟩ layers →
      ((lateSession [(⟨3⟩, .ofNat 1)]).store.type ⟨2⟩).properties = layers.flatten ∧
      (∀ l ∈ layers, Distinct l) ∧
      (Distinct ((lateSession [(⟨3⟩, .ofNat 1)]).store.type ⟨2⟩).properties ↔
        layers.Pairwise Apart) :=
  ⟨rfl, (closed_lateSession _).distinct_properties_iff rfl⟩

/-- A type that declares a property its super type holds lists it twice. -/
theorem exists_property_listed_twice :
    ∃ (S : Session) (t : TypeId), S.Closed ∧ (S.store.type t).isFinalized ∧
      ¬Distinct (S.store.type t).properties := by
  refine ⟨lateSession [(⟨3⟩, .ofNat 1)], ⟨2⟩, closed_lateSession _, rfl, ?_⟩
  have hproperties : ((lateSession [(⟨3⟩, .ofNat 1)]).store.type ⟨2⟩).properties =
      [(⟨3⟩, .ofNat 1), (⟨3⟩, .ofNat 1)] := rfl
  rw [hproperties]
  simp [Distinct]

end Session

end Records
