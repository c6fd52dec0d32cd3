import Records.Proofs.Shape.Attribute
import Records.Proofs.Shape.Plain
import Records.Value.Equality

/-!
# Caching shapes stand for histories

A shape is reached by adding attributes of either kind, and its history is the list of them. Every
shape but the empty one has one parent and one attribute that is added to it, and the transition
for this attribute leads from the parent to the shape. So a table issues one shape for each
history, in whatever order the extensions come and whoever asks for them. Static attributes take
part with their values, which are compared by an equivalence. The maps of a shape, which answer
the questions about a name, have the names of its lists.

## Main definitions

* `CachingTable.Reachable`: the tables that calls lead to.
* `CachingTable.Chain`: attributes are added one after the other, while others extend the table.
* `CachingTable.Historical`: shapes stand for histories.

## Main statements

* `CachingTable.Reachable.historical`: in every reachable table shapes stand for histories.
-/

namespace Records

namespace CachingTable

variable {κ ν : Type} [DecidableEq κ] {render : κ → String} {t t' u : CachingTable κ ν}
  {m m' n n' : CachingShape} {a b : Attribute κ ν} {h g : List (Attribute κ ν)}
  {node node' : CachingNode κ ν}

/-! ### Attributes of a shape -/

section

variable (hn : (g.map Attribute.name).Nodup) (hm : t.node? m = some (.ofHistory g))
include hn hm

lemma dynamicIndex?_eq_some_iff {name : κ} {i : Nat} :
    t.dynamicIndex? m name = some i ↔ (g.filterMap Attribute.dynamic?)[i]? = some name := by
  rw [dynamicIndex?, hm, Option.bind_some, ← CachingNode.dynamicKeys_ofHistory]
  exact (CachingNode.synced_ofHistory hn).dynamics.find?_eq_some_iff name i

lemma static?_eq_some_iff {name : κ} {value : ν} :
    t.static? m name = some value ↔ .static name value ∈ g := by
  rw [static?, hm, Option.bind_some, CachingNode.statics_ofHistory_eq_some_iff hn]

lemma lookup_stored {stored : List (κ × ν)}
    (hstored : stored.map Prod.fst = g.filterMap Attribute.dynamic?) {name : κ} {value : ν}
    (hmem : (name, value) ∈ stored) (fallback : ν) :
    t.lookup m name (stored.map Prod.snd) fallback = value := by
  obtain ⟨i, hi⟩ := List.mem_iff_getElem?.1 hmem
  have hindex : t.dynamicIndex? m name = some i := by
    rw [dynamicIndex?_eq_some_iff hn hm, ← hstored, List.getElem?_map, hi]
    rfl
  rw [lookup, hindex]
  dsimp only
  rw [List.getElem?_map, hi]
  rfl

lemma lookup_static {name : κ} {value : ν} (hmem : .static name value ∈ g) (storage : List ν)
    (fallback : ν) : t.lookup m name storage fallback = value := by
  have hindex : t.dynamicIndex? m name = none := by
    rw [Option.eq_none_iff_forall_not_mem]
    intro i hi
    have hd := List.mem_of_getElem? ((dynamicIndex?_eq_some_iff hn hm).1 hi)
    rw [← CachingNode.dynamicKeys_ofHistory] at hd
    exact CachingNode.not_mem_dynamicKeys_of_static hn hmem hd
  rw [lookup, hindex, (static?_eq_some_iff hn hm).2 hmem]
  rfl

lemma lookup_other {name : κ} (hname : name ∉ g.map Attribute.name) (storage : List ν)
    (fallback : ν) : t.lookup m name storage fallback = fallback := by
  have hindex : t.dynamicIndex? m name = none := by
    rw [Option.eq_none_iff_forall_not_mem]
    intro i hi
    have hmem := List.mem_of_getElem? ((dynamicIndex?_eq_some_iff hn hm).1 hi)
    rw [← CachingNode.dynamicKeys_ofHistory] at hmem
    exact hname (CachingNode.mem_keys_ofHistory.1 (List.mem_append_left _ hmem))
  have hstatic : t.static? m name = none := by
    rw [Option.eq_none_iff_forall_not_mem]
    intro value hvalue
    exact hname (List.mem_map.2 ⟨_, (static?_eq_some_iff hn hm).1 hvalue, rfl⟩)
  rw [lookup, hindex, hstatic]
  rfl

end

variable [BEq ν]

/-! ### Calls -/

/-- The shape reached from `m` by adding an attribute of either kind. -/
def extend (render : κ → String) (t : CachingTable κ ν) (m : CachingShape) :
    Attribute κ ν → Except ShapeError (CachingShape × CachingTable κ ν)
  | .dynamic name => t.extendDynamic render m name
  | .static name value => t.extendStatic render m name value

/-- A call. A call that is refused leaves the table as it is. -/
inductive Step (render : κ → String) : CachingTable κ ν → CachingTable κ ν → Prop
  | extend {t t' : CachingTable κ ν} {m m' : CachingShape} {a : Attribute κ ν} :
      t.extend render m a = .ok (m', t') → Step render t t'
  | refused {t : CachingTable κ ν} {m : CachingShape} {a : Attribute κ ν} {e : ShapeError} :
      t.extend render m a = .error e → Step render t t

/-- Later states of a table. -/
def Later (render : κ → String) : CachingTable κ ν → CachingTable κ ν → Prop :=
  Relation.ReflTransGen (Step render)

/-- The tables that calls lead to. -/
def Reachable (render : κ → String) (t : CachingTable κ ν) : Prop := Later render .empty t

/-- Attributes are added to the empty shape one after the other, while others extend the table.
The last two parts are the shape that this leads to and the attributes in order. -/
inductive Chain (render : κ → String) :
    CachingTable κ ν → CachingShape → List (Attribute κ ν) → Prop
  | start {t : CachingTable κ ν} : t.Reachable render → Chain render t .empty []
  | other {t t' : CachingTable κ ν} {m : CachingShape} {h : List (Attribute κ ν)} :
      Chain render t m h → Step render t t' → Chain render t' m h
  | add {t t' : CachingTable κ ν} {m m' : CachingShape} {h : List (Attribute κ ν)}
      {a : Attribute κ ν} :
      Chain render t m h → t.extend render m a = .ok (m', t') → Chain render t' m' (h ++ [a])

/-- What a table answers for the shape of a history. -/
structure Describes (t : CachingTable κ ν) (m : CachingShape) (h : List (Attribute κ ν)) :
    Prop where
  /-- Dynamic names come before static ones, each in the order of the history. -/
  keys? : t.keys? m =
    some (h.filterMap Attribute.dynamic? ++ (h.filterMap Attribute.static?).map Prod.fst)
  storageSize? : t.storageSize? m = some (h.filterMap Attribute.dynamic?).length
  dynamicIndex?_eq_some_iff : ∀ name i,
    t.dynamicIndex? m name = some i ↔ (h.filterMap Attribute.dynamic?)[i]? = some name
  static?_eq_some : ∀ name value, .static name value ∈ h →
    ∃ v, t.static? m name = some v ∧ v == value
  static?_eq_none : ∀ name, (∀ value, .static name value ∉ h) → t.static? m name = none
  has_iff : ∀ name, t.has m name ↔ name ∈ h.map Attribute.name
  isLeaf_iff : t.isLeaf m ↔ h = []
  /-- An object that stores one value for each dynamic name has these values, those of the static
  attributes and no others. -/
  lookup : ∀ (stored : List (κ × ν)) (fallback : ν),
    stored.map Prod.fst = h.filterMap Attribute.dynamic? →
    (∀ name value, (name, value) ∈ stored →
      t.lookup m name (stored.map Prod.snd) fallback = value) ∧
    (∀ name value, .static name value ∈ h →
      t.lookup m name (stored.map Prod.snd) fallback == value) ∧
    ∀ name, name ∉ h.map Attribute.name →
      t.lookup m name (stored.map Prod.snd) fallback = fallback

/-- Shapes stand for histories in which no name comes twice. -/
structure Historical (render : κ → String) (t : CachingTable κ ν) : Prop where
  /-- The shapes issued so far are those that attributes lead to. -/
  issued_iff : ∀ m, m.number < t.size ↔ ∃ h, Chain render t m h
  nodup : ∀ m h, Chain render t m h → (h.map Attribute.name).Nodup
  /-- Distinct shapes stand for distinct histories. -/
  eq_iff : ∀ m n h g, Chain render t m h → Chain render t n g → (m = n ↔ SameHistory h g)
  /-- A name that is there is refused, and its kind is given. -/
  refused_iff : ∀ m h a e, Chain render t m h →
    (t.extend render m a = .error e ↔
      ∃ b ∈ h, b.name = a.name ∧ e = .kindConflict (render a.name) b.kind)
  /-- A name that is not there leads to the shape with the attribute behind the others. -/
  extended : ∀ m h a, Chain render t m h → a.name ∉ h.map Attribute.name →
    ∃ m' t', t.extend render m a = .ok (m', t') ∧ Chain render t' m' (h ++ [a])
  describes : ∀ m h, Chain render t m h → t.Describes m h
  /-- What a table answers for a shape never changes. -/
  kept : ∀ t' m h, Later render t t' → Chain render t m h →
    Chain render t' m h ∧ t'.keys? m = t.keys? m ∧ t'.storageSize? m = t.storageSize? m ∧
      t'.isLeaf m = t.isLeaf m ∧
      ∀ name, t'.dynamicIndex? m name = t.dynamicIndex? m name ∧
        t'.static? m name = t.static? m name ∧ t'.has m name = t.has m name ∧
        ∀ storage fallback, t'.lookup m name storage fallback = t.lookup m name storage fallback

/-! ### One extension -/

/-- The shape that an extension by an attribute led to before. -/
def transition? (t : CachingTable κ ν) (m : CachingShape) : Attribute κ ν → Option CachingShape
  | .dynamic name => t.dynamicTransition? m name
  | .static name value => t.staticTransition? m name value

/-- The table after a new shape was issued. -/
def issue (t : CachingTable κ ν) (m : CachingShape) (node : CachingNode κ ν) :
    Attribute κ ν → CachingTable κ ν
  | .dynamic name =>
    { t with
      nodes := t.nodes.push (node.add (.dynamic name))
      dynamicTransitions := ((m, name), ⟨t.size⟩) :: t.dynamicTransitions }
  | .static name value =>
    { t with
      nodes := t.nodes.push (node.add (.static name value))
      staticTransitions := ((m, name, value), ⟨t.size⟩) :: t.staticTransitions }

/-- Extensions of either kind are alike. -/
lemma extend_eq (t : CachingTable κ ν) (m : CachingShape) (a : Attribute κ ν) :
    t.extend render m a =
      match t.transition? m a with
      | some child => .ok (child, t)
      | none => (t.free render m a.name).map fun node => (⟨t.size⟩, t.issue m node a) := by
  cases a with
  | dynamic name =>
    simp only [extend, extendDynamic, transition?, Attribute.name]
    cases t.dynamicTransition? m name with
    | some child => rfl
    | none => cases t.free render m name <;> rfl
  | static name value =>
    simp only [extend, extendStatic, transition?, Attribute.name]
    cases t.staticTransition? m name value with
    | some child => rfl
    | none => cases t.free render m name <;> rfl

lemma extend_of_transition? (h : t.transition? m a = some n) :
    t.extend render m a = .ok (n, t) := by
  rw [extend_eq, h]

omit [BEq ν] in
/-- An attribute is free at a shape of the table if its name is not among the keys. -/
lemma free_eq (hm : t.node? m = some node) (name : κ) :
    t.free render m name =
      match node.kind? name with
      | some k => .error (.kindConflict (render name) k)
      | none => .ok node := by
  cases hk : node.kind? name <;> simp [free, hm, hk]

/-- What an extension answers, and the table behind it. -/
lemma extend_eq_ok_iff :
    t.extend render m a = .ok (m', t') ↔
      t.transition? m a = some m' ∧ t' = t ∨
        t.transition? m a = none ∧ ∃ node, t.node? m = some node ∧ node.kind? a.name = none ∧
          m' = ⟨t.size⟩ ∧ t' = t.issue m node a := by
  rw [extend_eq]
  cases t.transition? m a with
  | some child => simp [eq_comm]
  | none =>
    cases hm : t.node? m with
    | none => simp [free, hm, Except.map]
    | some node =>
      rw [free_eq hm]
      simp only [Option.some.injEq, exists_eq_left']
      cases node.kind? a.name <;> simp [Except.map, eq_comm]

/-- An extension is refused if it was not made before and the name is attached already. -/
lemma extend_eq_error_iff (hm : t.node? m = some node) {e : ShapeError} :
    t.extend render m a = .error e ↔ t.transition? m a = none ∧
      ∃ k, node.kind? a.name = some k ∧ e = .kindConflict (render a.name) k := by
  rw [extend_eq, free_eq hm]
  cases t.transition? m a with
  | some child => simp
  | none => cases node.kind? a.name <;> simp [Except.map, eq_comm]

omit [DecidableEq κ] [BEq ν] in
lemma number_lt_of_node? (h : t.node? m = some node) : m.number < t.size :=
  (Array.getElem?_eq_some_iff.1 h).1

omit [BEq ν] in
lemma nodes_issue : (t.issue m node a).nodes = t.nodes.push (node.add a) := by
  cases a <;> rfl

omit [BEq ν] in
lemma node?_issue :
    (t.issue m node a).node? n = some node' ↔
      t.node? n = some node' ∨ n = ⟨t.size⟩ ∧ node' = node.add a := by
  cases n
  rw [node?, nodes_issue, CachingShape.mk.injEq]
  exact getElem?_push_eq_some_iff

/-- The new transition is for the shape and the attributes that are the same. -/
lemma transition?_issue_of_same (hab : a.Same b) :
    (t.issue m node a).transition? m b = some ⟨t.size⟩ := by
  cases hab with
  | dynamic name => simp [issue, transition?, dynamicTransition?]
  | static name hvw => simp [issue, transition?, staticTransition?, hvw]

lemma transition?_issue_of_ne (hne : ¬(m = n ∧ a.Same b)) :
    (t.issue m node a).transition? n b = t.transition? n b := by
  cases a with
  | dynamic name =>
    cases b with
    | dynamic name' =>
      have hkey : ¬(m = n ∧ name = name') := by
        rintro ⟨rfl, rfl⟩
        exact hne ⟨rfl, .dynamic name⟩
      simp [issue, transition?, dynamicTransition?, hkey]
    | static _ _ => rfl
  | static name v =>
    cases b with
    | dynamic _ => rfl
    | static name' w =>
      have hkey : ¬((m = n ∧ name = name') ∧ v == w) := by
        rintro ⟨⟨rfl, rfl⟩, hvw⟩
        exact hne ⟨rfl, .static name hvw⟩
      simp [issue, transition?, staticTransition?, hkey]

lemma transition?_issue_cases (hn : (t.issue m node a).transition? n b = some n') :
    m = n ∧ a.Same b ∧ n' = ⟨t.size⟩ ∨ t.transition? n b = some n' := by
  by_cases hab : m = n ∧ a.Same b
  · obtain ⟨rfl, hab⟩ := hab
    rw [transition?_issue_of_same hab] at hn
    exact .inl ⟨rfl, hab, (Option.some.inj hn).symm⟩
  · rw [transition?_issue_of_ne hab] at hn
    exact .inr hn

/-- Transitions do not tell attributes apart that are the same. -/
lemma transition?_congr [EquivBEq ν] (hab : a.Same b) : t.transition? m a = t.transition? m b := by
  cases hab with
  | dynamic name => rfl
  | @static name v w hvw =>
    have hvalue : ∀ x : ν, (x == v) = (x == w) := fun x => BEq.congr_right hvw
    simp only [transition?, staticTransition?, hvalue]

/-- Shapes and transitions that are there stay. -/
structure Extends (t t' : CachingTable κ ν) : Prop where
  node? : ∀ n node, t.node? n = some node → t'.node? n = some node
  transition? : ∀ m a n, t.transition? m a = some n → t'.transition? m a = some n

lemma Extends.refl (t : CachingTable κ ν) : t.Extends t := ⟨fun _ _ => id, fun _ _ _ => id⟩

lemma Extends.trans (h : t.Extends t') (h' : t'.Extends u) : t.Extends u :=
  ⟨fun n node hn => h'.node? n node (h.node? n node hn),
    fun m a n hn => h'.transition? m a n (h.transition? m a n hn)⟩

/-- The transition of a new shape is new. -/
lemma extends_issue [EquivBEq ν] (hnone : t.transition? m a = none) :
    t.Extends (t.issue m node a) where
  node? _ _ hn := node?_issue.2 (.inl hn)
  transition? m' b n hn := by
    rw [transition?_issue_of_ne, hn]
    rintro ⟨rfl, hab⟩
    rw [transition?_congr hab, hn] at hnone
    cases hnone

/-! ### The tree of shapes -/

/-- Every shape but the empty one has one parent and one attribute that is added to it, and a
transition leads from the parent to the shape. -/
structure Rooted (t : CachingTable κ ν) : Prop where
  empty : t.node? .empty = some {}
  parent : ∀ n, n ≠ .empty → n.number < t.size →
    ∃ m a, m.number < n.number ∧ t.transition? m a = some n
  child : ∀ m a n, t.transition? m a = some n → ∃ node b, t.node? m = some node ∧
    node.kind? a.name = none ∧ a.Same b ∧ t.node? n = some (node.add b)
  inj : ∀ m a m' a' n, t.transition? m a = some n → t.transition? m' a' = some n →
    m = m' ∧ a.Same a'

lemma rooted_empty : (empty : CachingTable κ ν).Rooted := by
  have hnone : ∀ m a, (empty : CachingTable κ ν).transition? m a = none := by
    intro m a
    cases a <;> rfl
  refine ⟨rfl, fun n hne hn => ?_, fun m a n h => ?_, fun m a m' a' n h => ?_⟩
  · exact absurd (congrArg CachingShape.mk (Nat.lt_one_iff.1 hn)) hne
  · rw [hnone] at h
    cases h
  · rw [hnone] at h
    cases h

namespace Rooted

lemma number_lt (ht : t.Rooted) (hn : t.transition? m a = some n) : n.number < t.size := by
  obtain ⟨_, _, _, _, _, hchild⟩ := ht.child m a n hn
  exact number_lt_of_node? hchild

variable [EquivBEq ν]

lemma issue (ht : t.Rooted) (hm : t.node? m = some node) (hname : node.kind? a.name = none)
    (hnone : t.transition? m a = none) : (t.issue m node a).Rooted := by
  refine ⟨node?_issue.2 (.inl ht.empty), ?_, ?_, ?_⟩
  · intro n hne hn
    rw [size, nodes_issue, Array.size_push] at hn
    rcases Nat.lt_succ_iff_lt_or_eq.1 hn with hn | hn
    · obtain ⟨m', b, hm', hb⟩ := ht.parent n hne hn
      exact ⟨m', b, hm', (extends_issue hnone).transition? m' b n hb⟩
    · obtain rfl : n = ⟨t.size⟩ := congrArg CachingShape.mk hn
      exact ⟨m, a, number_lt_of_node? hm, transition?_issue_of_same (.refl a)⟩
  · intro m' b n hn
    rcases transition?_issue_cases hn with ⟨rfl, hab, rfl⟩ | hn
    · exact ⟨node, a, node?_issue.2 (.inl hm), hab.name_eq ▸ hname, hab.symm,
        node?_issue.2 (.inr ⟨rfl, rfl⟩)⟩
    · obtain ⟨node', c, hm', hname', hbc, hchild⟩ := ht.child m' b n hn
      exact ⟨node', c, node?_issue.2 (.inl hm'), hname', hbc, node?_issue.2 (.inl hchild)⟩
  · intro m₁ b₁ m₂ b₂ n h₁ h₂
    -- the new transition is the only one to the new shape
    rcases transition?_issue_cases h₁ with ⟨rfl, hab₁, rfl⟩ | h₁ <;>
      rcases transition?_issue_cases h₂ with ⟨rfl, hab₂, hn⟩ | h₂
    · exact ⟨rfl, hab₁.symm.trans hab₂⟩
    · exact absurd (ht.number_lt h₂) (Nat.lt_irrefl _)
    · subst hn
      exact absurd (ht.number_lt h₁) (Nat.lt_irrefl _)
    · exact ht.inj m₁ b₁ m₂ b₂ n h₁ h₂

end Rooted

/-! ### Histories -/

/-- The transitions for a list of attributes lead from the empty shape to a shape. -/
inductive Leads (t : CachingTable κ ν) : CachingShape → List (Attribute κ ν) → Prop
  | empty : Leads t .empty []
  | add {m n : CachingShape} {h : List (Attribute κ ν)} {a : Attribute κ ν} :
      Leads t m h → t.transition? m a = some n → Leads t n (h ++ [a])

lemma Leads.chain (ht : t.Reachable render) (hm : t.Leads m h) : Chain render t m h := by
  induction hm with
  | empty => exact .start ht
  | add _ hn ih => exact .add ih (extend_of_transition? hn)

namespace Rooted

variable (ht : t.Rooted)
include ht

/-- A shape has the attributes of its history, up to equal values. -/
lemma exists_ofHistory (hm : t.Leads m h) :
    (h.map Attribute.name).Nodup ∧
      ∃ g, SameHistory h g ∧ t.node? m = some (.ofHistory g) := by
  induction hm with
  | empty => exact ⟨List.nodup_nil, [], .nil, ht.empty⟩
  | @add m n h a _ hn ih =>
    obtain ⟨hnodup, g, hs, hm⟩ := ih
    obtain ⟨node, b, hm', hname, hab, hn⟩ := ht.child m a n hn
    obtain rfl := Option.some.inj (hm.symm.trans hm')
    have hsynced := CachingNode.synced_ofHistory (hs.map_name_eq ▸ hnodup)
    rw [hsynced.kind?_eq_none_iff, CachingNode.mem_keys_ofHistory, ← hs.map_name_eq] at hname
    have hnodup' := hnodup.concat hname
    rw [List.concat_eq_append] at hnodup'
    refine ⟨by rwa [List.map_append], g ++ [b], SameHistory.concat_iff.2 ⟨hs, hab⟩, ?_⟩
    rw [hn, CachingNode.ofHistory_concat]

/-- No transition leads to the empty shape. -/
lemma ne_empty (hn : t.transition? m a = some n) : n ≠ .empty := by
  rintro rfl
  obtain ⟨node, b, -, -, -, hempty⟩ := ht.child m a .empty hn
  have hnode := Option.some.inj (ht.empty.symm.trans hempty)
  cases b <;> simp [CachingNode.add, CachingNode.addDynamic, CachingNode.addStatic] at hnode

/-- Every shape of the table has a history. -/
lemma exists_leads (hm : m.number < t.size) : ∃ h, t.Leads m h := by
  induction hk : m.number using Nat.strongRecOn generalizing m with
  | ind k ih =>
    subst hk
    by_cases hempty : m = .empty
    · exact ⟨[], hempty ▸ .empty⟩
    · obtain ⟨m', a, hlt, ha⟩ := ht.parent m hempty hm
      obtain ⟨h, hleads⟩ := ih m'.number hlt (Nat.lt_trans hlt hm) rfl
      exact ⟨h ++ [a], .add hleads ha⟩

end Rooted

/-! ### Later tables -/

lemma Leads.extends (hm : t.Leads m h) (ht : t.Extends t') : t'.Leads m h := by
  induction hm with
  | empty => exact .empty
  | add _ hn ih => exact .add ih (ht.transition? _ _ _ hn)

variable [EquivBEq ν]

/-- An extension answers the shape that its transition leads to from then on. -/
lemma Rooted.of_extend (ht : t.Rooted) (hextend : t.extend render m a = .ok (m', t')) :
    t'.Rooted ∧ t.Extends t' ∧ t'.transition? m a = some m' := by
  rcases extend_eq_ok_iff.1 hextend with ⟨hn, rfl⟩ | ⟨hnone, node, hm, hname, rfl, rfl⟩
  · exact ⟨ht, .refl t', hn⟩
  · exact ⟨ht.issue hm hname hnone, extends_issue hnone, transition?_issue_of_same (.refl a)⟩

lemma Rooted.step (ht : t.Rooted) (hstep : Step render t t') : t'.Rooted ∧ t.Extends t' := by
  cases hstep with
  | extend hextend =>
    obtain ⟨ht', hkept, -⟩ := ht.of_extend hextend
    exact ⟨ht', hkept⟩
  | refused _ => exact ⟨ht, .refl t⟩

lemma Rooted.later (ht : t.Rooted) (hlater : Later render t t') : t'.Rooted ∧ t.Extends t' := by
  induction hlater with
  | refl => exact ⟨ht, .refl t⟩
  | tail _ hstep ih =>
    obtain ⟨ht', hkept⟩ := ih.1.step hstep
    exact ⟨ht', ih.2.trans hkept⟩

lemma Reachable.rooted (h : t.Reachable render) : t.Rooted := (rooted_empty.later h).1

/-- Whoever adds attributes one after the other follows the transitions for them. -/
lemma Chain.leads (hm : Chain render t m h) : t.Reachable render ∧ t.Leads m h := by
  induction hm with
  | start ht => exact ⟨ht, .empty⟩
  | other _ hstep ih =>
    obtain ⟨ht, hm⟩ := ih
    exact ⟨ht.tail hstep, hm.extends (ht.rooted.step hstep).2⟩
  | add _ hextend ih =>
    obtain ⟨ht, hm⟩ := ih
    obtain ⟨-, hkept, hn⟩ := ht.rooted.of_extend hextend
    exact ⟨ht.tail (.extend hextend), .add (hm.extends hkept) hn⟩

omit [EquivBEq ν] in
lemma Chain.later (hm : Chain render t m h) (hlater : Later render t t') :
    Chain render t' m h := by
  induction hlater with
  | refl => exact hm
  | tail _ hstep ih => exact .other ih hstep

/-- Two histories lead to one shape exactly if they are the same. -/
lemma Rooted.leads_eq_iff (ht : t.Rooted) (hm : t.Leads m h) (hn : t.Leads n g) :
    m = n ↔ SameHistory h g := by
  induction hm generalizing n g with
  | empty =>
    cases hn with
    | empty => exact ⟨fun _ => .nil, fun _ => rfl⟩
    | add _ hn =>
      constructor
      · rintro rfl
        exact absurd rfl (ht.ne_empty hn)
      · intro hs
        simpa using hs.length_eq
  | @add m m' h a _ hm ih =>
    cases hn with
    | empty =>
      constructor
      · rintro rfl
        exact absurd rfl (ht.ne_empty hm)
      · intro hs
        simpa using hs.length_eq
    | @add n n' g b hleads hn =>
      rw [SameHistory.concat_iff, ← ih hleads]
      constructor
      · rintro rfl
        exact ht.inj m a n b m' hm hn
      · rintro ⟨rfl, hab⟩
        rw [transition?_congr hab, hn] at hm
        exact (Option.some.inj hm).symm

/-- A shape answers by its history, up to equal values. -/
lemma describes (hnodup : (g.map Attribute.name).Nodup) (hs : SameHistory h g)
    (hm : t.node? m = some (.ofHistory g)) : t.Describes m h := by
  have hdynamics : h.filterMap Attribute.dynamic? = g.filterMap Attribute.dynamic? :=
    hs.dynamics_eq
  have hstatics : (h.filterMap Attribute.static?).map Prod.fst =
      (g.filterMap Attribute.static?).map Prod.fst := hs.statics_eq
  have hsynced := CachingNode.synced_ofHistory hnodup
  -- the value of the shape is the one of the same attribute
  have hstatic : ∀ name value, .static name value ∈ h → ∃ v, .static name v ∈ g ∧ v == value := by
    intro name value hmem
    obtain ⟨b, hb, hab⟩ := hs.exists_mem hmem
    cases hab with
    | static _ hvw => exact ⟨_, hb, BEq.symm hvw⟩
  refine ⟨?_, ?_, fun name i => ?_, fun name value hmem => ?_, fun name hname => ?_, fun name => ?_,
    ?_, fun stored fallback hstored => ⟨?_, ?_, ?_⟩⟩
  · rw [hdynamics, hstatics, CachingTable.keys?, hm, Option.map_some, CachingNode.keys_ofHistory]
  · rw [hdynamics, CachingTable.storageSize?, hm, Option.map_some,
      CachingNode.dynamicKeys_ofHistory]
  · rw [hdynamics, CachingTable.dynamicIndex?_eq_some_iff hnodup hm]
  · obtain ⟨v, hv, heq⟩ := hstatic name value hmem
    exact ⟨v, (static?_eq_some_iff hnodup hm).2 hv, heq⟩
  · rw [Option.eq_none_iff_forall_not_mem]
    intro v hv
    obtain ⟨b, hb, hab⟩ := hs.symm.exists_mem ((static?_eq_some_iff hnodup hm).1 hv)
    cases hab with
    | static _ _ => exact hname _ hb
  · rw [CachingTable.has, hm, Option.any_some, hsynced.has_iff, CachingNode.mem_keys_ofHistory,
      hs.map_name_eq]
  · rw [isLeaf, hm, Option.any_some, decide_eq_true_iff, hsynced.size_eq,
      (CachingNode.keys_ofHistory_perm g).length_eq, List.length_map, ← hs.length_eq,
      List.length_eq_zero_iff]
  · intro name value hmem
    exact lookup_stored hnodup hm (hstored.trans hdynamics) hmem fallback
  · intro name value hmem
    obtain ⟨v, hv, heq⟩ := hstatic name value hmem
    rwa [lookup_static hnodup hm hv]
  · intro name hname
    rw [hs.map_name_eq] at hname
    exact lookup_other hnodup hm hname _ fallback

/-- An attribute is refused exactly at shapes that have its name. -/
lemma Rooted.extend_eq_error_iff_mem (ht : t.Rooted) (hm : t.Leads m h) {e : ShapeError} :
    t.extend render m a = .error e ↔
      ∃ b ∈ h, b.name = a.name ∧ e = .kindConflict (render a.name) b.kind := by
  obtain ⟨hnodup, g, hs, hnode⟩ := ht.exists_ofHistory hm
  rw [hs.map_name_eq] at hnodup
  rw [extend_eq_error_iff hnode]
  constructor
  · rintro ⟨-, k, hk, rfl⟩
    obtain ⟨b, hb, hname, rfl⟩ := (CachingNode.kind?_ofHistory_eq_some_iff hnodup).1 hk
    obtain ⟨c, hc, hbc⟩ := hs.symm.exists_mem hb
    exact ⟨c, hc, hbc.name_eq ▸ hname, by rw [hbc.kind_eq]⟩
  · rintro ⟨b, hb, hname, rfl⟩
    obtain ⟨c, hc, hbc⟩ := hs.exists_mem hb
    have hk := (CachingNode.kind?_ofHistory_eq_some_iff hnodup).2 ⟨c, hc, hbc.name_eq ▸ hname, rfl⟩
    refine ⟨?_, c.kind, hk, by rw [hbc.kind_eq]⟩
    -- a transition for the attribute would start at a shape without its name
    rw [Option.eq_none_iff_forall_not_mem]
    intro n hn
    obtain ⟨node', d, hnode', hfresh, -, -⟩ := ht.child m a n hn
    obtain rfl := Option.some.inj (hnode.symm.trans hnode')
    rw [hfresh] at hk
    cases hk

/-- An attribute can be added to shapes that do not have its name. -/
lemma Chain.exists_add (hm : Chain render t m h) (hname : a.name ∉ h.map Attribute.name) :
    ∃ m' t', t.extend render m a = .ok (m', t') ∧ Chain render t' m' (h ++ [a]) := by
  cases hextend : t.extend render m a with
  | ok r => exact ⟨r.1, r.2, rfl, .add hm hextend⟩
  | error e =>
    obtain ⟨b, hb, hba, -⟩ := (hm.leads.1.rooted.extend_eq_error_iff_mem hm.leads.2).1 hextend
    exact absurd (List.mem_map.2 ⟨b, hb, hba⟩) hname

/-- In every reachable table shapes stand for histories. -/
theorem Reachable.historical (ht : t.Reachable render) : t.Historical render where
  issued_iff m := by
    constructor
    · intro hm
      obtain ⟨h, hleads⟩ := ht.rooted.exists_leads hm
      exact ⟨h, hleads.chain ht⟩
    · rintro ⟨h, hchain⟩
      obtain ⟨-, g, -, hnode⟩ := ht.rooted.exists_ofHistory hchain.leads.2
      exact number_lt_of_node? hnode
  nodup _ _ hchain := (ht.rooted.exists_ofHistory hchain.leads.2).1
  eq_iff _ _ _ _ hm hn := ht.rooted.leads_eq_iff hm.leads.2 hn.leads.2
  refused_iff _ _ _ _ hchain := ht.rooted.extend_eq_error_iff_mem hchain.leads.2
  extended _ _ _ hchain hname := hchain.exists_add hname
  describes _ _ hchain := by
    obtain ⟨hnodup, g, hs, hnode⟩ := ht.rooted.exists_ofHistory hchain.leads.2
    exact CachingTable.describes (hs.map_name_eq ▸ hnodup) hs hnode
  kept t' m h hlater hchain := by
    obtain ⟨-, g, -, hnode⟩ := ht.rooted.exists_ofHistory hchain.leads.2
    have heq : t'.node? m = t.node? m :=
      ((ht.rooted.later hlater).2.node? m _ hnode).trans hnode.symm
    refine ⟨hchain.later hlater, ?_, ?_, ?_, fun name => ⟨?_, ?_, ?_, fun storage fallback => ?_⟩⟩
    all_goals
      simp only [keys?, storageSize?, isLeaf, dynamicIndex?, static?, has, lookup, heq]

/-- A name is dynamic in one shape and static, with two values, in others. One more attachment of
it is refused. -/
def mixed : CachingTable String Value where
  nodes :=
    #[{}, { indexes := ⟨[("a", 0)]⟩, dynamicKeys := ["a"] },
      { indexes := ⟨[("a", 0)]⟩, dynamicKeys := ["a"]
        statics := ⟨[("b", .bool true)]⟩, staticKeys := ["b"] },
      { statics := ⟨[("a", .bool true)]⟩, staticKeys := ["a"] },
      { statics := ⟨[("a", .bool false)]⟩, staticKeys := ["a"] }]
  dynamicTransitions := [((⟨0⟩, "a"), ⟨1⟩)]
  staticTransitions :=
    [((⟨0⟩, "a", .bool false), ⟨4⟩), ((⟨0⟩, "a", .bool true), ⟨3⟩),
      ((⟨1⟩, "b", .bool true), ⟨2⟩)]

lemma reachable_mixed : mixed.Reachable id :=
  .tail (.tail (.tail (.tail (.tail .refl
    (.extend (m := .empty) (a := .dynamic "a") rfl))
    (.extend (m := ⟨1⟩) (a := .static "b" (.bool true)) rfl))
    (.extend (m := .empty) (a := .static "a" (.bool true)) rfl))
    (.extend (m := .empty) (a := .static "a" (.bool false)) rfl))
    (.refused (m := ⟨2⟩) (a := .static "a" (.bool true)) rfl)

/-- The name has its kind and its value in each of the shapes alone. -/
theorem Reachable.historical_mixed : mixed.Reachable id ∧ mixed.Historical id :=
  ⟨reachable_mixed, reachable_mixed.historical⟩

end CachingTable

end Records
