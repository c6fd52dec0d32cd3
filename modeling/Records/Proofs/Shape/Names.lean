import Records.Proofs.Shape.Caching
import Mathlib.Data.List.Perm.Subperm
import Mathlib.Data.Set.Basic

/-!
# Caching shapes are compared by their names

No name comes twice in a shape, and its maps have the names of its lists: sizes come from the
former, the names that are looked up from the latter. So two shapes with as many names, of which one
has all those of the other, have the same names: the comparison looks at one direction only, and is
symmetric all the same. Kinds, static values and the order of attachment take no part.

## Main statements

* `CachingTable.Reachable.byNames`: in every reachable table shapes are compared by their names.
-/

namespace Records

namespace CachingNode

variable {κ ν : Type} [DecidableEq κ] {n n' : CachingNode κ ν}

/-- As many names, of which the other node has all, are the names of the other node. -/
lemma Synced.keys_perm_iff (hn : n.Synced) (hn' : n'.Synced) :
    n.keys.Perm n'.keys ↔ n.size = n'.size ∧ ∀ name ∈ n.keys, n'.has name := by
  rw [hn.size_eq, hn'.size_eq]
  constructor
  · intro hperm
    exact ⟨hperm.length_eq, fun name hname => hn'.has_iff.2 (hperm.mem_iff.1 hname)⟩
  · rintro ⟨hlength, hall⟩
    have hsubset : n.keys ⊆ n'.keys := fun name hname => hn'.has_iff.1 (hall name hname)
    exact (hn.nodup_keys.subperm hsubset).perm_of_length_le (Nat.le_of_eq hlength.symm)

end CachingNode

namespace CachingTable

variable {κ ν : Type} [DecidableEq κ] {render : κ → String} {t t' : CachingTable κ ν}
  {m n : CachingShape} {h g : List (Attribute κ ν)} {node node' : CachingNode κ ν}

/-- The names of the attributes of a shape. -/
def names (t : CachingTable κ ν) (m : CachingShape) : Set κ := {name | t.has m name}

lemma sameShape_iff_keys_perm (hm : t.node? m = some node) (hn : t.node? n = some node')
    (hnode : node.Synced) (hnode' : node'.Synced) :
    t.sameShape m n ↔ node.keys.Perm node'.keys := by
  by_cases heq : m = n
  · subst heq
    obtain rfl := Option.some.inj (hm.symm.trans hn)
    simp [sameShape]
  · rw [hnode.keys_perm_iff hnode']
    simp [sameShape, heq, hm, hn, CachingNode.keys, or_imp, forall_and, and_assoc]

variable [BEq ν]

/-- Shapes are compared by their names. -/
structure ByNames (render : κ → String) (t : CachingTable κ ν) : Prop where
  sameShape_iff : ∀ m n, m.number < t.size → n.number < t.size →
    (t.sameShape m n ↔ t.names m = t.names n)
  /-- Kinds, static values and the order of attachment take no part. -/
  sameShape_iff_perm : ∀ m n h g, Chain render t m h → Chain render t n g →
    (t.sameShape m n ↔ (h.map Attribute.name).Perm (g.map Attribute.name))
  equivalence : Equivalence fun m n : {m : CachingShape // m.number < t.size} =>
    t.sameShape m n = true
  /-- Shapes with the same names that gain one more name each, in tables that others extend in
  between and afterwards, have the same names exactly if the names that they gain are equal. -/
  extend : ∀ m n a b, m.number < t.size → n.number < t.size → t.sameShape m n →
    a.name ∉ t.names m → b.name ∉ t.names n →
    ∃ m' t₁, t.extend render m a = .ok (m', t₁) ∧ ∀ t₂, Later render t₁ t₂ →
      ∃ n' t₃, t₂.extend render n b = .ok (n', t₃) ∧ ∀ t₄, Later render t₃ t₄ →
        (t₄.sameShape m' n' ↔ a.name = b.name)

/-- The names of a shape are those of its history, in another order. -/
lemma Rooted.keys_perm (ht : t.Rooted) (hm : t.Leads m h) :
    ∃ node, t.node? m = some node ∧ node.Synced ∧
      node.keys.Perm (h.map Attribute.name) := by
  obtain ⟨hnodup, g, hs, hnode⟩ := ht.exists_ofHistory hm
  rw [hs.map_name_eq] at hnodup ⊢
  exact ⟨_, hnode, CachingNode.synced_ofHistory hnodup, CachingNode.keys_ofHistory_perm g⟩

lemma Rooted.mem_names_iff (ht : t.Rooted) (hm : t.Leads m h) {name : κ} :
    name ∈ t.names m ↔ name ∈ h.map Attribute.name := by
  obtain ⟨node, hnode, hsynced, hperm⟩ := ht.keys_perm hm
  rw [← hperm.mem_iff, ← hsynced.has_iff, names, Set.mem_ofPred_eq, has, hnode,
    Option.any_some]

lemma Rooted.sameShape_iff_perm (ht : t.Rooted) (hm : t.Leads m h) (hn : t.Leads n g) :
    t.sameShape m n ↔ (h.map Attribute.name).Perm (g.map Attribute.name) := by
  obtain ⟨node, hnode, hsynced, hperm⟩ := ht.keys_perm hm
  obtain ⟨node', hnode', hsynced', hperm'⟩ := ht.keys_perm hn
  rw [sameShape_iff_keys_perm hnode hnode' hsynced hsynced', hperm.congr_left, hperm'.congr_right]

lemma Rooted.sameShape_iff_names_eq (ht : t.Rooted) (hm : t.Leads m h) (hn : t.Leads n g) :
    t.sameShape m n ↔ t.names m = t.names n := by
  have hnodup := (ht.exists_ofHistory hm).1
  have hnodup' := (ht.exists_ofHistory hn).1
  rw [ht.sameShape_iff_perm hm hn, List.perm_ext_iff_of_nodup hnodup hnodup', Set.ext_iff]
  exact forall_congr' fun name => by rw [ht.mem_names_iff hm, ht.mem_names_iff hn]

variable [EquivBEq ν]

/-- In every reachable table shapes are compared by their names. -/
theorem Reachable.byNames (ht : t.Reachable render) : t.ByNames render := by
  have hnames : ∀ m n, m.number < t.size → n.number < t.size →
      (t.sameShape m n ↔ t.names m = t.names n) := by
    intro m n hm hn
    obtain ⟨h, hm⟩ := ht.rooted.exists_leads hm
    obtain ⟨g, hn⟩ := ht.rooted.exists_leads hn
    exact ht.rooted.sameShape_iff_names_eq hm hn
  refine ⟨hnames, fun m n h g hm hn => ht.rooted.sameShape_iff_perm hm.leads.2 hn.leads.2, ?_, ?_⟩
  · exact
      { refl := fun m => (hnames m m m.2 m.2).2 rfl
        symm := fun {m n} h => (hnames n m n.2 m.2).2 ((hnames m n m.2 n.2).1 h).symm
        trans := fun {m n k} h h' => (hnames m k m.2 k.2).2
          (((hnames m n m.2 n.2).1 h).trans ((hnames n k n.2 k.2).1 h')) }
  · intro m n a b hm hn hsame ha hb
    obtain ⟨h, hm⟩ := ht.rooted.exists_leads hm
    obtain ⟨g, hn⟩ := ht.rooted.exists_leads hn
    rw [ht.rooted.mem_names_iff hm] at ha
    rw [ht.rooted.mem_names_iff hn] at hb
    have hperm := (ht.rooted.sameShape_iff_perm hm hn).1 hsame
    obtain ⟨m', t₁, hextend, hm'⟩ := (hm.chain ht).exists_add ha
    refine ⟨m', t₁, hextend, fun t₂ hlater => ?_⟩
    have hn : Chain render t₂ n g := ((hn.chain ht).later (.single (.extend hextend))).later hlater
    obtain ⟨n', t₃, hextend', hn'⟩ := hn.exists_add hb
    refine ⟨n', t₃, hextend', fun t₄ hlater' => ?_⟩
    have hm' := (((hm'.later hlater).later (.single (.extend hextend'))).later hlater').leads
    have hn' := (hn'.later hlater').leads
    rw [hm'.1.rooted.sameShape_iff_perm hm'.2 hn'.2, List.map_append, List.map_append,
      (hperm.append_right _).congr_left, List.perm_append_left_iff]
    exact List.singleton_perm_singleton

/-- The shapes that have a single name are the same shape by names, of whatever kind it is. -/
theorem Reachable.byNames_mixed : mixed.Reachable id ∧ mixed.ByNames id :=
  ⟨reachable_mixed, reachable_mixed.byNames⟩

end CachingTable

end Records
