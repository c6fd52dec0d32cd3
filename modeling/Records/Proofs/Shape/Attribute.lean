import Records.Proofs.Shape.Index
import Records.Shape.Caching
import Mathlib.Data.List.Forall2
import Mathlib.Data.List.Induction

/-!
# Histories of caching shapes

A shape is reached by adding attributes of either kind, and its history is the list of them. The
node of a shape sorts its history by the kinds, and keeps each kind in a map and in a list. Static
attributes take part with their values, which are compared by an equivalence.

## Main definitions

* `Attribute`: an attribute of either kind.
* `SameHistory`: two histories agree attribute by attribute.
* `CachingNode.ofHistory`: the node of a history.
* `CachingNode.Synced`: the maps of a node have the names of its lists.

## Main statements

* `CachingNode.Synced.add`: one more attribute with a new name keeps maps and lists together.
* `CachingNode.kind?_ofHistory_eq_some_iff`: a name has the kind with which it was attached.
-/

namespace Records

/-! ### Attributes -/

/-- An attribute, as it is added to a shape. -/
inductive Attribute (κ ν : Type) where
  | dynamic (name : κ)
  | static (name : κ) (value : ν)

namespace Attribute

variable {κ ν : Type}

/-- The name of an attribute. -/
def name : Attribute κ ν → κ
  | dynamic name => name
  | static name _ => name

/-- The kind of an attribute. -/
def kind : Attribute κ ν → AttributeKind
  | dynamic _ => .dynamic
  | static _ _ => .static

/-- The name, if the attribute is dynamic. -/
def dynamic? : Attribute κ ν → Option κ
  | dynamic name => some name
  | static _ _ => none

/-- The name and the value, if the attribute is static. -/
def static? : Attribute κ ν → Option (κ × ν)
  | dynamic _ => none
  | static name value => some (name, value)

/-- Attributes are the same if they have one kind and one name, and equal values if they are
static. -/
inductive Same [BEq ν] : Attribute κ ν → Attribute κ ν → Prop
  | dynamic (name : κ) : Same (.dynamic name) (.dynamic name)
  | static (name : κ) {v w : ν} : v == w → Same (.static name v) (.static name w)

namespace Same

variable [BEq ν] {a b c : Attribute κ ν}

lemma name_eq (h : a.Same b) : a.name = b.name := by
  cases h <;> rfl

lemma kind_eq (h : a.Same b) : a.kind = b.kind := by
  cases h <;> rfl

variable [EquivBEq ν]

lemma refl (a : Attribute κ ν) : a.Same a := by
  cases a with
  | dynamic name => exact .dynamic name
  | static name value => exact .static name BEq.rfl

lemma symm (h : a.Same b) : b.Same a := by
  cases h with
  | dynamic name => exact .dynamic name
  | static name h => exact .static name (BEq.symm h)

lemma trans (h : a.Same b) (h' : b.Same c) : a.Same c := by
  cases h with
  | dynamic name => exact h'
  | static name h =>
    cases h' with
    | static _ h' => exact .static name (BEq.trans h h')

end Same

end Attribute

/-- Two histories are the same, attribute by attribute. -/
def SameHistory {κ ν : Type} [BEq ν] (h g : List (Attribute κ ν)) : Prop :=
  List.Forall₂ Attribute.Same h g

namespace CachingNode

variable {κ ν : Type} [DecidableEq κ] {n : CachingNode κ ν} {h : List (Attribute κ ν)}
  {a : Attribute κ ν} {name : κ} {value : ν}

/-- The attributes with one more. -/
def add (n : CachingNode κ ν) : Attribute κ ν → CachingNode κ ν
  | .dynamic name => n.addDynamic name
  | .static name value => n.addStatic name value

/-- The attributes of a history, added one after the other. -/
def ofHistory (h : List (Attribute κ ν)) : CachingNode κ ν := h.foldl add {}

lemma ofHistory_concat (h : List (Attribute κ ν)) (a : Attribute κ ν) :
    ofHistory (h ++ [a]) = (ofHistory h).add a :=
  List.foldl_concat ..

/-! ### Maps and lists -/

/-- The index has the positions of the dynamic names, the map the static ones, and no name is of
both kinds. -/
structure Synced (n : CachingNode κ ν) : Prop where
  dynamics : n.indexes.Indexes n.dynamicKeys
  statics : n.statics.Lists n.staticKeys
  disjoint : n.dynamicKeys.Disjoint n.staticKeys

lemma synced_empty : ({} : CachingNode κ ν).Synced :=
  ⟨.empty, .empty, List.disjoint_nil_left _⟩

namespace Synced

variable (hn : n.Synced)
include hn

lemma nodup_keys : n.keys.Nodup := hn.dynamics.nodup.append hn.statics.nodup hn.disjoint

lemma kind?_eq_none_iff : n.kind? name = none ↔ name ∉ n.keys := by
  rw [CachingNode.kind?_eq_none_iff, hn.dynamics.find?_eq_none_iff, hn.statics.find?_eq_none_iff,
    keys, List.mem_append, not_or]

lemma has_iff : n.has name ↔ name ∈ n.keys := by
  rw [has, Option.isSome_iff_ne_none, Ne, hn.kind?_eq_none_iff, Decidable.not_not]

lemma size_eq : n.size = n.keys.length := by
  rw [size, hn.dynamics.size_eq, hn.statics.size_eq, keys, List.length_append]

/-- A new name is added to a map and to the list beside it. -/
lemma add (hname : a.name ∉ n.keys) : (n.add a).Synced := by
  rw [keys, List.mem_append, not_or] at hname
  obtain ⟨hdynamic, hstatic⟩ := hname
  cases a with
  | dynamic name =>
    exact ⟨hn.dynamics.insert hdynamic, hn.statics,
      List.disjoint_append_left.2 ⟨hn.disjoint, List.singleton_disjoint.2 hstatic⟩⟩
  | static name value =>
    exact ⟨hn.dynamics, hn.statics.insert hstatic value,
      List.disjoint_append_right.2 ⟨hn.disjoint, List.disjoint_singleton.2 hdynamic⟩⟩

end Synced

/-! ### Nodes of histories -/

lemma dynamicKeys_ofHistory (h : List (Attribute κ ν)) :
    (ofHistory h).dynamicKeys = h.filterMap Attribute.dynamic? := by
  induction h using List.reverseRecOn with
  | nil => rfl
  | append_singleton h a ih =>
    rw [ofHistory_concat, List.filterMap_append, ← ih]
    cases a with
    | dynamic name => rfl
    | static name value => exact (List.append_nil _).symm

lemma staticKeys_ofHistory (h : List (Attribute κ ν)) :
    (ofHistory h).staticKeys = (h.filterMap Attribute.static?).map Prod.fst := by
  induction h using List.reverseRecOn with
  | nil => rfl
  | append_singleton h a ih =>
    rw [ofHistory_concat, List.filterMap_append, List.map_append, ← ih]
    cases a with
    | dynamic name => exact (List.append_nil _).symm
    | static name value => rfl

lemma keys_ofHistory (h : List (Attribute κ ν)) :
    (ofHistory h).keys =
      h.filterMap Attribute.dynamic? ++ (h.filterMap Attribute.static?).map Prod.fst := by
  rw [keys, dynamicKeys_ofHistory, staticKeys_ofHistory]

/-- The keys are the names of the history, in another order. -/
lemma keys_ofHistory_perm (h : List (Attribute κ ν)) :
    (ofHistory h).keys.Perm (h.map Attribute.name) := by
  rw [keys_ofHistory]
  induction h with
  | nil => exact .nil
  | cons a h ih =>
    cases a with
    | dynamic name => exact ih.cons name
    | static name value => exact List.perm_middle.trans (ih.cons name)

lemma mem_keys_ofHistory : name ∈ (ofHistory h).keys ↔ name ∈ h.map Attribute.name :=
  (keys_ofHistory_perm h).mem_iff

lemma mem_dynamicKeys_ofHistory : name ∈ (ofHistory h).dynamicKeys ↔ .dynamic name ∈ h := by
  rw [dynamicKeys_ofHistory, List.mem_filterMap]
  constructor
  · rintro ⟨a, ha, heq⟩
    cases a <;> cases heq
    exact ha
  · exact fun ha => ⟨_, ha, rfl⟩

section

variable (hn : (h.map Attribute.name).Nodup)
include hn

/-- Attributes with different names are kept together. -/
lemma synced_ofHistory : (ofHistory h).Synced := by
  induction h using List.reverseRecOn with
  | nil => exact synced_empty
  | append_singleton h a ih =>
    rw [List.map_append, List.map_singleton] at hn
    obtain ⟨hprev, -, hdisjoint⟩ := List.nodup_append'.1 hn
    rw [ofHistory_concat]
    exact (ih hprev).add (mem_keys_ofHistory.not.2 (List.disjoint_singleton.1 hdisjoint))

/-- A static name is not dynamic as well. -/
lemma not_mem_dynamicKeys_of_static (ha : .static name value ∈ h) :
    name ∉ (ofHistory h).dynamicKeys := by
  intro hd
  cases List.inj_on_of_nodup_map hn (mem_dynamicKeys_ofHistory.1 hd) ha rfl

/-- The value of a static attribute is the one in the history. -/
lemma statics_ofHistory_eq_some_iff :
    (ofHistory h).statics.find? name = some value ↔ .static name value ∈ h := by
  induction h using List.reverseRecOn with
  | nil => exact ⟨nofun, nofun⟩
  | append_singleton h a ih =>
    rw [List.map_append, List.map_singleton] at hn
    obtain ⟨hprev, -, hdisjoint⟩ := List.nodup_append'.1 hn
    rw [ofHistory_concat, List.mem_append, List.mem_singleton, ← ih hprev]
    cases a with
    | dynamic name' => simp [add, addDynamic]
    | static name' value' =>
      rw [add, addStatic, NameMap.find?_insert]
      by_cases heq : name' = name
      · subst heq
        have hfree : (ofHistory h).statics.find? name' = none := by
          refine (synced_ofHistory hprev).statics.find?_eq_none_iff.2 fun hmem => ?_
          exact List.disjoint_singleton.1 hdisjoint
            (mem_keys_ofHistory.1 (List.mem_append_right _ hmem))
        simp [hfree, eq_comm]
      · simp [heq, Ne.symm heq]

lemma kind?_ofHistory_of_mem (ha : a ∈ h) : (ofHistory h).kind? a.name = some a.kind := by
  have hsynced := synced_ofHistory hn
  cases a with
  | dynamic name =>
    exact if_pos ((hsynced.dynamics.contains_iff name).2 (mem_dynamicKeys_ofHistory.2 ha))
  | static name value =>
    have hs : (ofHistory h).statics.contains name :=
      Option.isSome_iff_exists.2 ⟨value, (statics_ofHistory_eq_some_iff hn).2 ha⟩
    have hd := (hsynced.dynamics.contains_iff name).not.2 (not_mem_dynamicKeys_of_static hn ha)
    exact (if_neg hd).trans (if_pos hs)

/-- A name has the kind with which it was attached. -/
lemma kind?_ofHistory_eq_some_iff {k : AttributeKind} :
    (ofHistory h).kind? name = some k ↔ ∃ a ∈ h, a.name = name ∧ a.kind = k := by
  constructor
  · intro hk
    have hmem : name ∈ (ofHistory h).keys := by
      by_contra hmem
      rw [(synced_ofHistory hn).kind?_eq_none_iff.2 hmem] at hk
      cases hk
    obtain ⟨a, ha, rfl⟩ := List.mem_map.1 (mem_keys_ofHistory.1 hmem)
    exact ⟨a, ha, rfl, Option.some.inj ((kind?_ofHistory_of_mem hn ha).symm.trans hk)⟩
  · rintro ⟨a, ha, rfl, rfl⟩
    exact kind?_ofHistory_of_mem hn ha

end

end CachingNode

namespace SameHistory

variable {κ ν : Type} [BEq ν] {h g f : List (Attribute κ ν)} {a b : Attribute κ ν}

lemma concat_iff : SameHistory (h ++ [a]) (g ++ [b]) ↔ SameHistory h g ∧ a.Same b := by
  rw [SameHistory, ← List.forall₂_reverse_iff, List.reverse_concat, List.reverse_concat,
    List.forall₂_cons, List.forall₂_reverse_iff, and_comm]
  rfl

lemma exists_mem (hs : SameHistory h g) (ha : a ∈ h) : ∃ b ∈ g, a.Same b := by
  induction hs with
  | nil => cases ha
  | @cons c d h g hcd _ ih =>
    rcases List.mem_cons.1 ha with rfl | ha
    · exact ⟨d, List.mem_cons_self, hcd⟩
    · obtain ⟨b, hb, hab⟩ := ih ha
      exact ⟨b, List.mem_cons_of_mem _ hb, hab⟩

lemma map_name_eq (hs : SameHistory h g) : h.map Attribute.name = g.map Attribute.name := by
  induction hs with
  | nil => rfl
  | cons hab _ ih => rw [List.map_cons, List.map_cons, hab.name_eq, ih]

lemma dynamics_eq (hs : SameHistory h g) :
    h.filterMap Attribute.dynamic? = g.filterMap Attribute.dynamic? := by
  induction hs with
  | nil => rfl
  | cons hab _ ih =>
    cases hab with
    | dynamic name => exact congrArg (name :: ·) ih
    | static name _ => exact ih

lemma statics_eq (hs : SameHistory h g) :
    (h.filterMap Attribute.static?).map Prod.fst =
      (g.filterMap Attribute.static?).map Prod.fst := by
  induction hs with
  | nil => rfl
  | cons hab _ ih =>
    cases hab with
    | dynamic name => exact ih
    | static name _ => exact congrArg (name :: ·) ih

variable [EquivBEq ν]

lemma symm (hs : SameHistory h g) : SameHistory g h := by
  induction hs with
  | nil => exact .nil
  | cons hab _ ih => exact .cons hab.symm ih

end SameHistory

end Records
