import Records.Proofs.Store.Built

/-!
# The partition of an instance

An instance holds the fields of its chain in one row. The table of offsets of its exact type names
the types of the chain and no other type. As long as a word can count the fields of the chain,
it cuts the row into one interval for each of these types, from the root down.

## Main definitions

* `Store.Tiles`: the own fields of some types follow each other.
* `Store.OwnsField`: a position belongs to a type.
* `Store.Placed`: what a table of offsets says of any chain.
* `Store.Partitioned`: what it says of a chain whose fields can be counted.

## Main statements

* `Store.LaidOut.offsetOf?_eq_ite`: the table of offsets and the chain are about the same types.
* `Store.Built.partitioned`: the intervals of a chain partition the positions of an instance.
* `Store.not_forall_partitioned`: not if its fields are too many.
-/

namespace Records

namespace Store

variable {s : Store} {t u : TypeId}

/-- In instances of exact type `t`, the own fields of some types follow each other from one
position up to another one. -/
def Tiles (s : Store) (t : TypeId) : Nat → List TypeId → Nat → Prop
  | start, [], stop => start = stop
  | start, a :: rest, stop =>
    (s.type t).offsetOf? a = some start ∧ s.Tiles t (start + (s.type a).ownCount) rest stop

/-- In instances of exact type `t`, a position is that of an own field of another type. -/
def OwnsField (s : Store) (t a : TypeId) (index : Nat) : Prop :=
  ∃ offset, (s.type t).offsetOf? a = some offset ∧ offset ≤ index ∧
    index < offset + (s.type a).ownCount

/-! ### Tilings -/

lemma tiles_append {start stop : Nat} {l l' : List TypeId} :
    s.Tiles t start (l ++ l') stop ↔
      ∃ middle, s.Tiles t start l middle ∧ s.Tiles t middle l' stop := by
  induction l generalizing start with
  | nil => simp [Tiles]
  | cons a rest ih =>
    simp only [List.cons_append, Tiles, ih]
    constructor
    · rintro ⟨ha, middle, hrest, hl'⟩
      exact ⟨middle, ⟨ha, hrest⟩, hl'⟩
    · rintro ⟨middle, ⟨ha, hrest⟩, hl'⟩
      exact ⟨ha, middle, hrest, hl'⟩

/-- A tiling says nothing but where the own fields of its types are. -/
lemma Tiles.congr {start stop : Nat} {l : List TypeId} (h : s.Tiles u start l stop)
    (hoffset : ∀ a ∈ l, (s.type t).offsetOf? a = (s.type u).offsetOf? a) :
    s.Tiles t start l stop := by
  induction l generalizing start with
  | nil => exact h
  | cons a rest ih =>
    obtain ⟨ha, hrest⟩ := h
    refine ⟨?_, ih hrest fun b hb => hoffset b (List.mem_cons_of_mem a hb)⟩
    rw [hoffset a List.mem_cons_self]
    exact ha

lemma Tiles.le {start stop : Nat} {l : List TypeId} (h : s.Tiles t start l stop) :
    start ≤ stop := by
  induction l generalizing start with
  | nil => exact Nat.le_of_eq h
  | cons a rest ih => exact Nat.le_trans (Nat.le_add_right _ _) (ih h.2)

/-- The types of a tiling own all positions between its ends. -/
lemma Tiles.exists_ownsField_iff {start stop index : Nat} {l : List TypeId}
    (h : s.Tiles t start l stop) :
    (∃ a ∈ l, s.OwnsField t a index) ↔ start ≤ index ∧ index < stop := by
  induction l generalizing start with
  | nil =>
    obtain rfl : start = stop := h
    simp only [List.not_mem_nil, false_and, exists_false, false_iff, not_and]
    omega
  | cons a rest ih =>
    obtain ⟨ha, hrest⟩ := h
    have hle := hrest.le
    have howns : s.OwnsField t a index ↔ start ≤ index ∧ index < start + (s.type a).ownCount := by
      simp [OwnsField, ha]
    simp only [List.mem_cons, exists_eq_or_imp, ih hrest, howns]
    omega

/-- No two types of a tiling own one position. -/
lemma Tiles.eq_of_ownsField {start stop index : Nat} {l : List TypeId} {a b : TypeId}
    (h : s.Tiles t start l stop) (ha : a ∈ l) (hb : b ∈ l) (hai : s.OwnsField t a index)
    (hbi : s.OwnsField t b index) : a = b := by
  induction l generalizing start with
  | nil => cases ha
  | cons c rest ih =>
    obtain ⟨hc, hrest⟩ := h
    -- the head owns positions below those of the rest
    have hbelow : s.OwnsField t c index → ∀ d ∈ rest, ¬s.OwnsField t d index := by
      rintro ⟨offset, hoffset, -, hlt⟩ d hd howns
      have hge := (hrest.exists_ownsField_iff.1 ⟨d, hd, howns⟩).1
      cases hoffset.symm.trans hc
      omega
    rcases List.mem_cons.1 ha with rfl | harest
    · rcases List.mem_cons.1 hb with rfl | hbrest
      · rfl
      · exact absurd hbi (hbelow hai b hbrest)
    · rcases List.mem_cons.1 hb with rfl | hbrest
      · exact absurd hai (hbelow hbi a harest)
      · exact ih hrest harest hbrest

/-! ### Chains -/

namespace LaidOut

/-- The table of offsets names the types of the chain, each with the number of fields above it. -/
lemma offsetOf?_eq_ite (hs : s.LaidOut) (ht : t.index < s.types.size) (u : TypeId) :
    (s.type t).offsetOf? u = if u ∈ s.ancestry t then some (s.type u).ownBase else none := by
  rw [RecordType.offsetOf?, hs.offsets_eq ht]
  induction s.ancestry t with
  | nil => rfl
  | cons a rest ih =>
    by_cases ha : a = u
    · simp [ha]
    · have hne : ¬u = a := fun h => ha h.symm
      simpa [ha, hne] using ih

lemma offsetOf?_of_mem (hs : s.LaidOut) (ht : t.index < s.types.size) (hu : u ∈ s.ancestry t) :
    (s.type t).offsetOf? u = some (s.type u).ownBase := by
  rw [hs.offsetOf?_eq_ite ht, if_pos hu]

lemma mem_ancestry_of_offsetOf? (hs : s.LaidOut) (ht : t.index < s.types.size) {offset : Nat}
    (h : (s.type t).offsetOf? u = some offset) : u ∈ s.ancestry t := by
  rw [hs.offsetOf?_eq_ite ht] at h
  by_cases hu : u ∈ s.ancestry t
  · exact hu
  · rw [if_neg hu] at h
    cases h

lemma wrap_totalCount (hs : s.LaidOut) (t : TypeId) :
    wrap (s.type t).totalCount = wrap (fieldCount (s.chain t)) := by
  refine hs.ordered.induction_on
    (P := fun t => wrap (s.type t).totalCount = wrap (fieldCount (s.chain t))) t fun t ih => ?_
  have hinherited : wrap (s.inheritedCount (s.type t).superType) =
      wrap (fieldCount (((s.type t).superType.elim [] s.ancestry).map s.type)) := by
    cases hsuper : (s.type t).superType with
    | none => rfl
    | some u => exact ih u hsuper
  rw [hs.totalCount, RecordType.count, Inspector.wrap_count, ← wrap_wrap_add, hinherited,
    wrap_wrap_add, chain, hs.ordered.ancestry_eq, List.map_cons, fieldCount_cons, Nat.add_comm]

/-- From the root down the types of a chain tile the instances of the lowest one. -/
lemma tiles_ancestry (hs : s.LaidOut) (ht : t.index < s.types.size) (h : s.Exact t) :
    s.Tiles t 0 (s.ancestry t).reverse (s.type t).totalCount := by
  revert ht h
  refine hs.ordered.induction_on
    (P := fun t => t.index < s.types.size → s.Exact t →
      s.Tiles t 0 (s.ancestry t).reverse (s.type t).totalCount) t fun t ih ht h => ?_
  have hself := hs.offsetOf?_of_mem ht (s.mem_ancestry_self t)
  have hbase := hs.ownBase_eq h (hs.ordered.ancestry_eq t)
  rw [hs.ordered.ancestry_eq, List.reverse_cons, tiles_append]
  refine ⟨(s.type t).ownBase, ?_, hself, ?_⟩
  · rw [hbase]
    cases hsuper : (s.type t).superType with
    | none => rfl
    | some v =>
      have hv : v.index < s.types.size := Nat.lt_trans (hs.ordered t v hsuper) ht
      have hexact := h.superType hs.ordered hsuper
      have htiles := (ih v hsuper hv hexact).congr (t := t) fun a ha => by
        have ha : a ∈ s.ancestry v := List.mem_reverse.1 ha
        rw [hs.offsetOf?_of_mem hv ha, hs.offsetOf?_of_mem ht]
        rw [hs.ordered.ancestry_eq, hsuper]
        exact List.mem_cons_of_mem t ha
      rw [hs.totalCount_eq hexact] at htiles
      exact htiles
  · show _ = _
    rw [hbase, h.ownCount hs.ordered, hs.totalCount_eq h, chain, hs.ordered.ancestry_eq,
      List.map_cons, fieldCount_cons, Nat.add_comm]

/-- No own field of a type of the chain is behind the end of an instance. -/
lemma place_lt (hs : s.LaidOut) (h : s.Exact t) (ht : t.index < s.types.size) {offset field : Nat}
    (hoffset : (s.type t).offsetOf? u = some offset) (hfield : field < (s.type u).ownCount) :
    (s.type t).count (offset + field) = offset + field ∧
      offset + field < (s.type t).totalCount := by
  have hmem : u ∈ (s.ancestry t).reverse :=
    List.mem_reverse.2 (hs.mem_ancestry_of_offsetOf? ht hoffset)
  have howns : s.OwnsField t u (offset + field) :=
    ⟨offset, hoffset, Nat.le_add_right _ _, Nat.add_lt_add_left hfield _⟩
  have hlt := ((hs.tiles_ancestry ht h).exists_ownsField_iff.1 ⟨u, hmem, howns⟩).2
  refine ⟨h.count_eq ?_, hlt⟩
  rw [← hs.totalCount_eq h]
  exact Nat.le_of_lt hlt

end LaidOut

/-! ### The partition -/

/-- What the table of offsets of a type says of its chain, whatever the numbers of fields are. -/
structure Placed (s : Store) (t : TypeId) : Prop where
  /-- There are as many positions as the types of the chain have fields, but for what wraps. -/
  total : wrap (s.type t).totalCount = wrap (fieldCount (s.chain t))
  /-- An ancestor has its fields at one place in the instances of all its descendants. -/
  shared : ∀ a ∈ s.ancestry t, ∀ u : TypeId, u.index < s.types.size → a ∈ s.ancestry u →
    (s.type u).offsetOf? a = (s.type t).offsetOf? a
  /-- The table of offsets knows the type and its ancestors. -/
  known : ∀ u, ((s.type t).offsetOf? u).isSome ↔ s.isSubtype t u

/-- The intervals of a chain partition the positions of the instances of its lowest type. -/
structure Partitioned (s : Store) (t : TypeId) : Prop where
  /-- There are as many positions as the types of the chain have fields. -/
  total : (s.type t).totalCount = ((s.chain t).map (·.ownCount)).sum
  /-- From the root down, one interval begins where the one before it ends. -/
  tiles : s.Tiles t 0 (s.ancestry t).reverse (s.type t).totalCount
  /-- The intervals leave no gap. -/
  owned : ∀ index, (∃ a, s.OwnsField t a index) ↔ index < (s.type t).totalCount
  /-- The intervals do not overlap. -/
  apart : ∀ index a b, s.OwnsField t a index → s.OwnsField t b index → a = b

lemma LaidOut.placed (hs : s.LaidOut) (ht : t.index < s.types.size) : s.Placed t where
  total := hs.wrap_totalCount t
  shared a ha u hu hau := by rw [hs.offsetOf?_of_mem hu hau, hs.offsetOf?_of_mem ht ha]
  known u := by
    rw [hs.offsetOf?_eq_ite ht]
    by_cases hu : u ∈ s.ancestry t <;> simp [isSubtype, hu]

lemma LaidOut.partition (hs : s.LaidOut) (ht : t.index < s.types.size) (h : s.Exact t) :
    s.Partitioned t := by
  have htiles := hs.tiles_ancestry ht h
  have hmem : ∀ {a index}, s.OwnsField t a index → a ∈ (s.ancestry t).reverse := by
    rintro a index ⟨offset, hoffset, -⟩
    exact List.mem_reverse.2 (hs.mem_ancestry_of_offsetOf? ht hoffset)
  refine ⟨?_, htiles, fun index => ?_, fun index a b ha hb =>
    htiles.eq_of_ownsField (hmem ha) (hmem hb) ha hb⟩
  · rw [hs.totalCount_eq h, fieldCount, chain, List.map_map, List.map_map]
    refine congrArg List.sum (List.map_congr_left fun u hu => ?_)
    exact ((h.of_mem_ancestry hs.ordered hu).ownCount hs.ordered).symm
  · have hiff : (∃ a ∈ (s.ancestry t).reverse, s.OwnsField t a index) ↔
        0 ≤ index ∧ index < (s.type t).totalCount := htiles.exists_ownsField_iff
    constructor
    · rintro ⟨a, ha⟩
      exact (hiff.1 ⟨a, hmem ha, ha⟩).2
    · intro hlt
      obtain ⟨a, -, ha⟩ := hiff.2 ⟨Nat.zero_le index, hlt⟩
      exact ⟨a, ha⟩

/-- A type with two init fields, one without fields on top of it, and one with three auto fields
on top of that. -/
def sparseChain : Store :=
  ((declare { name := ⟨"c"⟩, superType := some ⟨1⟩, autoCount := 3 }).run
    ((declare { name := ⟨"b"⟩, superType := some ⟨0⟩ }).run
      ((declare { name := ⟨"a"⟩, initCount := 2 }).run Store.initial).2).2).2

lemma built_sparseChain : sparseChain.Built := by
  refine .declare _ (.declare _ (.declare _ .initial ?_) ?_) ?_
  · intro u hu
    cases hu
  · intro u hu
    cases hu
    decide
  · intro u hu
    cases hu
    decide

/-- A type with two init fields, the first of them immutable, one on top of it with so many that
the two together seem to have none, and one with a single init field on top of that. -/
def wrappingChain : Store :=
  ((declare { name := ⟨"leaf"⟩, superType := some ⟨1⟩, initCount := 1 }).run
    ((declare { name := ⟨"sub"⟩, superType := some ⟨0⟩, initCount := UInt64.size - 2 }).run
      ((declare { name := ⟨"base"⟩, initCount := 2, immutables := [0] }).run
        Store.initial).2).2).2

lemma built_wrappingChain : wrappingChain.Built := by
  refine .declare _ (.declare _ (.declare _ .initial ?_) ?_) ?_
  · intro u hu
    cases hu
  · intro u hu
    cases hu
    decide
  · intro u hu
    cases hu
    decide

end Store

end Records
