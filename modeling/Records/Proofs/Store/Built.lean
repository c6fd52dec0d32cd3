import Records.Proofs.RecordType.Offset

/-!
# Stores that operations build

Properties and types are added on top of older ones; nothing else adds any, and a type is only
ever changed by resolving its properties. So the implied properties of a property and the super
type of a type are older than it, and every type is laid out behind its super type.

## Main statements

* `Store.Built.laidOut`: every type is laid out behind its super type.
* `Store.Built.property_lt`: implied properties are older.
-/

namespace Records

namespace Store

variable {s s' : Store}

/-- A store that was built by operations. -/
inductive Built : Store → Prop where
  | initial : Built Store.initial
  | property {s : Store} (p : Property) (h : Built s)
      (hp : ∀ b ∈ p.supers, b.1.index < s.properties.size) : Built ((newProperty p).run s).2
  | declare {s : Store} (d : Declaration) (h : Built s)
      (hd : ∀ u, d.superType = some u → u.index < s.types.size) : Built ((declare d).run s).2
  | publish {s : Store} (t : TypeId) (r : Resolution) (h : Built s) :
      Built ((modifyType t (·.publish r)).run s).2
  | other {s s' : Store} (h : Built s) (ht : s'.types = s.types)
      (hp : s'.properties = s.properties) : Built s'

/-! ### Types -/

/-- A type with a super type exists. -/
lemma lt_of_superType {t u : TypeId} (h : (s.type t).superType = some u) :
    t.index < s.types.size := by
  rcases Nat.lt_or_ge t.index s.types.size with hlt | hge
  · exact hlt
  · rw [type_of_size_le hge] at h
    cases h

lemma inheritedOffsets_congr (hs : s.Ordered) {super : Option TypeId}
    (h : ∀ u, super = some u → ∀ v : TypeId, v.index ≤ u.index →
      (s'.type v).layout = (s.type v).layout) :
    s'.inheritedOffsets super = s.inheritedOffsets super := by
  cases super with
  | none => rfl
  | some u =>
    have hlayout := h u rfl
    have hanc : s'.ancestry u = s.ancestry u := hs.ancestry_congr fun v hv =>
      RecordType.eq_of_layout (·.superType) (fun _ => rfl) (hlayout v hv)
    show (s'.ancestry u).map _ = (s.ancestry u).map _
    rw [hanc]
    refine List.map_congr_left fun v hv => ?_
    have hbase : (s'.type v).ownBase = (s.type v).ownBase :=
      RecordType.eq_of_layout (·.ownBase) (fun _ => rfl) (hlayout v (hs.le_of_mem_ancestry hv))
    rw [hbase]

namespace LaidOut

/-- Layouts stay right when types are resolved. -/
lemma of_layout_eq (hs : s.LaidOut) (hsize : s'.types.size = s.types.size)
    (hlayout : ∀ t, (s'.type t).layout = (s.type t).layout) : s'.LaidOut := by
  have hsuper : ∀ t, (s'.type t).superType = (s.type t).superType := fun t =>
    RecordType.eq_of_layout (·.superType) (fun _ => rfl) (hlayout t)
  refine ⟨fun t u hu => ?_, fun t => ?_, fun t ht => ?_⟩
  · rw [hsuper] at hu
    exact hs.ordered t u hu
  · have htotal : (s'.type t).totalCount = (s.type t).totalCount :=
      RecordType.eq_of_layout (·.totalCount) (fun _ => rfl) (hlayout t)
    have hcount : ∀ n, (s'.type t).count (n + ((s'.type t).initCount + (s'.type t).autoCount)) =
        (s.type t).count (n + ((s.type t).initCount + (s.type t).autoCount)) := fun n =>
      RecordType.eq_of_layout (fun t => t.count (n + (t.initCount + t.autoCount)))
        (fun _ => rfl) (hlayout t)
    rw [htotal, hcount, hsuper, inheritedCount_congr fun u _ => hlayout u]
    exact hs.totalCount t
  · have hoffsets : (s'.type t).offsets = (s.type t).offsets :=
      RecordType.eq_of_layout (·.offsets) (fun _ => rfl) (hlayout t)
    have hcount : ∀ n, (s'.type t).count n = (s.type t).count n := fun n =>
      RecordType.eq_of_layout (·.count n) (fun _ => rfl) (hlayout t)
    rw [hoffsets, hcount, hsuper, inheritedCount_congr fun u _ => hlayout u,
      inheritedOffsets_congr hs.ordered fun u _ v _ => hlayout v]
    exact hs.offsets t (by omega)

/-- Adding a type behind its super type keeps the layouts right. -/
lemma push (hs : s.LaidOut) {type : RecordType}
    (hsuper : ∀ u, type.superType = some u → u.index < s.types.size)
    (htotal : type.totalCount =
      type.count (s.inheritedCount type.superType + (type.initCount + type.autoCount)))
    (hoffsets : type.offsets = (⟨s.types.size⟩, type.count (s.inheritedCount type.superType)) ::
      s.inheritedOffsets type.superType) :
    ({ s with types := s.types.push type } : Store).LaidOut := by
  -- a chain that starts from an older type stays among the older types
  have hold : ∀ v : TypeId, v.index < s.types.size →
      (({ s with types := s.types.push type } : Store).type v).layout = (s.type v).layout :=
    fun v hv => by rw [type_push_of_lt hv]
  have hbelow : ∀ t u, (s.type t).superType = some u → u.index < s.types.size :=
    fun t u hu => Nat.lt_trans (hs.ordered t u hu) (lt_of_superType hu)
  have hcount : ∀ super, (∀ u, super = some u → u.index < s.types.size) →
      ({ s with types := s.types.push type } : Store).inheritedCount super =
        s.inheritedCount super :=
    fun super h => inheritedCount_congr fun u hu => hold u (h u hu)
  have hinherited : ∀ super, (∀ u, super = some u → u.index < s.types.size) →
      ({ s with types := s.types.push type } : Store).inheritedOffsets super =
        s.inheritedOffsets super :=
    fun super h => inheritedOffsets_congr hs.ordered fun u hu v hv =>
      hold v (Nat.lt_of_le_of_lt hv (h u hu))
  refine ⟨hs.ordered.push hsuper, fun t => ?_, fun t ht => ?_⟩
  · rw [type_push]
    split
    · rw [hcount _ hsuper]
      exact htotal
    · rw [hcount _ (hbelow t)]
      exact hs.totalCount t
  · rw [type_push]
    split
    · rename_i hnew
      have hid : t = ⟨s.types.size⟩ := by
        cases t
        rw [← hnew]
      rw [hcount _ hsuper, hinherited _ hsuper, hid]
      exact hoffsets
    · rename_i hne
      rw [hcount _ (hbelow t), hinherited _ (hbelow t)]
      refine hs.offsets t ?_
      rw [Array.size_push] at ht
      omega

end LaidOut

lemma laidOut_initial : Store.initial.LaidOut := by
  have htype : ∀ t, Store.initial.type t = default := fun t => by simp [type, Store.initial]
  refine ⟨fun t u hu => ?_, fun t => ?_, fun t ht => ?_⟩
  · rw [htype] at hu
    cases hu
  · rw [htype]
    rfl
  · cases ht

/-- Every type is laid out behind its super type. -/
lemma Built.laidOut (h : s.Built) : s.LaidOut := by
  induction h with
  | initial => exact laidOut_initial
  | property p _ _ ih => exact ih.of_layout_eq rfl fun _ => rfl
  | declare d _ hd ih =>
    rename_i s _
    rw [run_declare]
    cases hl : s.layOut d with
    | error e => exact ih
    | ok type =>
      have htotal := layOut_totalCount hl
      obtain ⟨immutables, -, rfl⟩ := layOut_eq_ok_iff.1 hl
      exact ih.push hd htotal rfl
  | publish t r _ ih =>
    rename_i s _
    exact ih.of_layout_eq (by simp) fun u => layout_publish s t u r
  | other _ ht _ ih =>
    refine ih.of_layout_eq (by rw [ht]) fun t => ?_
    rw [type, ht, type]

/-! ### Properties -/

lemma property_push (s : Store) (p : Property) (id : PropertyId) :
    ({ s with properties := s.properties.push p } : Store).property id =
      if id.index = s.properties.size then p else s.property id := by
  simp only [property, Array.getD_eq_getD_getElem?, Array.getElem?_push]
  split <;> rfl

@[simp] lemma run_newProperty (p : Property) (s : Store) :
    (newProperty p).run s =
      (.ok ⟨s.properties.size⟩, { s with properties := s.properties.push p }) := rfl

lemma properties_declare (d : Declaration) (s : Store) :
    ((declare d).run s).2.properties = s.properties := by
  rw [run_declare]
  cases s.layOut d <;> rfl

lemma supers_initial (p : PropertyId) : (Store.initial.property p).supers = [] := by
  simp only [property, Store.initial, Array.getD_eq_getD_getElem?, List.getElem?_toArray,
    List.getElem?_map]
  cases Property.builtinNames[p.index]? <;> rfl

/-- Implied properties are older. -/
lemma Built.property_lt (h : s.Built) {p : PropertyId} {b : PropertyId × Value}
    (hb : b ∈ (s.property p).supers) : b.1.index < p.index := by
  induction h with
  | initial =>
    rw [supers_initial] at hb
    cases hb
  | property new _ hnew ih =>
    rw [run_newProperty, property_push] at hb
    split at hb
    · rename_i hp
      rw [hp]
      exact hnew b hb
    · exact ih hb
  | declare d _ _ ih =>
    rw [Store.property, properties_declare] at hb
    exact ih hb
  | publish t r _ ih => exact ih hb
  | other _ _ hp ih =>
    rw [Store.property, hp] at hb
    exact ih hb

end Store

end Records
