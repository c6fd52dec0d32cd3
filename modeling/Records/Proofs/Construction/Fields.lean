import Records.Proofs.Construction.Guards
import Records.Proofs.RecordType.Partition

/-!
# The fields of a new instance

A constructed instance holds, at the place its type's table of offsets names, the arguments of
each type of the chain as they were after the guard of that type, and behind them the auto value
of that type. This is so as long as a word can count the fields of the chain.

## Main statements

* `getElem?_storage`: what the row of fields holds of one type.
* `construct_correct`: the calls, the failures and the instances of a constructor.
* `not_forall_constructs`: not if the fields of the chain are too many.
-/

namespace Records

/-! ### The row of fields -/

/-- Arguments of the full length for each type of a chain. -/
structure Snapshots (types : List RecordType) (snapshots : List (List Value)) (n : Nat) :
    Prop where
  length : snapshots.length = types.length
  length_of_mem : ∀ args ∈ snapshots, args.length = n

lemma Snapshots.tail {t : RecordType} {types : List RecordType} {args : List Value}
    {snapshots : List (List Value)} {n : Nat}
    (h : Snapshots (t :: types) (args :: snapshots) n) : Snapshots types snapshots n :=
  ⟨Nat.succ.inj h.length, fun a ha => h.length_of_mem a (List.mem_cons_of_mem _ ha)⟩

lemma Guarded.snapshots {types : List RecordType} {args : List Value} {calls : List Exchange}
    {snapshots : List (List Value)} (h : Guarded types args calls (.ok snapshots))
    (hargs : argumentCount types ≤ args.length) : Snapshots types snapshots args.length := by
  generalize hout : (Except.ok snapshots : Except Failure _) = out at h
  induction h generalizing snapshots with
  | root =>
    cases hout
    exact ⟨rfl, nofun⟩
  | @free t supers args calls out hguard hrest ih =>
    rw [argumentCount_cons] at hargs
    cases out with
    | error e => cases hout
    | ok rest =>
      cases hout
      have hsnapshots := ih (by omega) rfl
      refine ⟨by simp [hsnapshots.length], fun a ha => ?_⟩
      rcases List.mem_cons.1 ha with rfl | ha
      · rfl
      · exact hsnapshots.length_of_mem a ha
  | @passed t supers args left guard reply calls out hguard hreply hrest ih =>
    have hleft := length_of_guardReply hreply
    have hlen : (left ++ args.drop (argumentCount (t :: supers))).length = args.length := by
      rw [List.length_append, hleft, List.length_take, List.length_drop]
      omega
    rw [argumentCount_cons] at hargs
    cases out with
    | error e => cases hout
    | ok rest =>
      cases hout
      have hsnapshots := ih (by omega) rfl
      rw [hlen] at hsnapshots
      refine ⟨by simp [hsnapshots.length], fun a ha => ?_⟩
      rcases List.mem_cons.1 ha with rfl | ha
      · exact hlen
      · exact hsnapshots.length_of_mem a ha
  | stopped => cases hout

lemma length_storage {types : List RecordType} {snapshots : List (List Value)} {n : Nat}
    (h : Snapshots types snapshots n) (hn : argumentCount types ≤ n) :
    (storage types snapshots).length = fieldCount types := by
  induction types generalizing snapshots with
  | nil => cases snapshots <;> rfl
  | cons t supers ih =>
    cases snapshots with
    | nil => cases h.length
    | cons args rest =>
      rw [argumentCount_cons] at hn
      have hargs := h.length_of_mem args List.mem_cons_self
      have hih := ih h.tail (by omega)
      simp only [storage, List.length_append, hih, List.length_take, List.length_drop,
        RecordType.autoValues, List.length_replicate, fieldCount_cons]
      omega

/-- Each type finds its own arguments behind the fields above it, and its auto values behind
those. -/
lemma getElem?_storage {below above : List RecordType} {t : RecordType}
    {snapshots : List (List Value)} {n j : Nat}
    (h : Snapshots (below ++ t :: above) snapshots n)
    (hn : argumentCount (below ++ t :: above) ≤ n) (hj : j < t.initCount + t.autoCount) :
    (storage (below ++ t :: above) snapshots)[fieldCount above + j]? =
      if j < t.initCount then
        snapshots[below.length]?.bind fun args => args[argumentCount above + j]?
      else some t.autoValue := by
  induction below generalizing snapshots with
  | nil =>
    cases snapshots with
    | nil => cases h.length
    | cons args rest =>
      rw [List.nil_append] at *
      rw [argumentCount_cons] at hn
      have hargs := h.length_of_mem args List.mem_cons_self
      have hlen := length_storage h.tail (by omega)
      rw [storage, List.append_assoc, List.getElem?_append_right (by omega), hlen,
        Nat.add_sub_cancel_left]
      have hown : ((args.drop (argumentCount above)).take t.initCount).length = t.initCount := by
        rw [List.length_take, List.length_drop]
        omega
      by_cases hinit : j < t.initCount
      · rw [if_pos hinit, List.getElem?_append_left (by omega), List.getElem?_take_of_lt hinit,
          List.getElem?_drop]
        rfl
      · rw [if_neg hinit, List.getElem?_append_right (by omega), hown, RecordType.autoValues,
          List.getElem?_replicate_of_lt]
        omega
  | cons b below ih =>
    cases snapshots with
    | nil => cases h.length
    | cons args rest =>
      rw [List.cons_append, argumentCount_cons] at hn
      have htail : Snapshots (below ++ t :: above) rest n := h.tail
      have hlen := length_storage htail (by omega)
      have hsum : fieldCount above + j < fieldCount (below ++ t :: above) := by
        simp only [fieldCount, List.map_append, List.map_cons, List.sum_append, List.sum_cons]
        omega
      rw [List.cons_append, storage, List.append_assoc,
        List.getElem?_append_left (by omega), ih htail (by omega)]
      rfl

/-! ### Construction -/

variable {R : Store → Store → Prop} {s s' : Store} {calls : List Exchange}

lemma argumentCount_le_fieldCount (types : List RecordType) :
    argumentCount types ≤ fieldCount types := by
  induction types with
  | nil => exact Nat.le_refl 0
  | cons t types ih =>
    rw [argumentCount_cons, fieldCount_cons]
    omega

lemma Store.constructorArity_eq (s : Store) (t : TypeId) :
    s.constructorArity t = (s.type t).count (argumentCount (s.chain t)) := by
  have hsum : ∀ types : List RecordType,
      types.foldr (fun t count => t.initCount + count) 0 = argumentCount types := by
    intro types
    induction types with
    | nil => rfl
    | cons t types ih => rw [List.foldr_cons, ih, argumentCount_cons]
  rw [Store.constructorArity, hsum]

lemma Store.Exact.constructorArity_eq {t : TypeId} (h : s.Exact t) :
    s.constructorArity t = argumentCount (s.chain t) := by
  rw [Store.constructorArity_eq, h.count_eq (argumentCount_le_fieldCount _)]

/-- The store with an instance of a type, made from the contents of its fields. -/
def Store.withRecord (s : Store) (t : TypeId) (values : List Value) : Store :=
  { s with instances := s.instances.push ⟨t, (values.map Slot.raw).toArray⟩ }

lemma Store.totalCount_of_moved (hs : s.LaidOut) {t : TypeId} (ht : t.index < s.types.size)
    (hexact : s.Exact t) (hmoved : Moved Evolves calls s s') :
    (s'.type t).totalCount = fieldCount (s.chain t) := by
  rw [← hs.totalCount_eq hexact]
  rcases hmoved with ⟨-, rfl⟩ | ⟨-, he⟩
  · rfl
  · exact RecordType.eq_of_layout (·.totalCount) (fun _ => rfl) (he.layout t ht)

/-- A constructor refuses a wrong number of arguments at once. -/
lemma runs_construct_of_ne {t : TypeId} (hexact : s.Exact t) {args : List Value}
    {out : Except Failure Value} (hlen : args.length ≠ argumentCount (s.chain t)) :
    (construct t args).Runs R s calls out s' ↔
      calls = [] ∧ out = .error (.condition (.arityMismatch (s.type t).constructorName.name
        (toString (argumentCount (s.chain t))) args.length)) ∧ s' = s := by
  show Computation.Runs R (if args.length = s.constructorArity t then _ else _) s calls out s' ↔ _
  rw [hexact.constructorArity_eq, if_neg hlen]
  exact Iff.rfl

/-- The row of a chain has the length that an instance of the type asks for. -/
lemma run_newInstance_storage (hs : s.LaidOut) {t : TypeId} (ht : t.index < s.types.size)
    (hexact : s.Exact t) {args : List Value} (hlen : args.length = argumentCount (s.chain t))
    {snapshots : List (List Value)} (hguarded : Guarded (s.chain t) args calls (.ok snapshots))
    {s₁ : Store} (hmoved : Moved Store.Evolves calls s s₁) :
    (newInstance t (storage (s.chain t) snapshots)).run s₁ =
      (.ok ⟨s₁.instances.size⟩, s₁.withRecord t (storage (s.chain t) snapshots)) := by
  have hle := Nat.le_of_eq hlen.symm
  have hrow := length_storage (hguarded.snapshots hle) hle
  rw [run_newInstance, if_pos]
  · rfl
  · rw [hrow, Store.totalCount_of_moved hs ht hexact hmoved]

/-- A constructor runs the guards, and if they pass it makes the instance. -/
lemma runs_construct_of_eq (hs : s.LaidOut) {t : TypeId} (ht : t.index < s.types.size)
    (hexact : s.Exact t) {args : List Value} {out : Except Failure Value}
    (hlen : args.length = argumentCount (s.chain t)) :
    (construct t args).Runs Store.Evolves s calls out s' ↔
      (∃ e, Guarded (s.chain t) args calls (.error e) ∧ Moved Store.Evolves calls s s' ∧
        out = .error e) ∨
      ∃ snapshots s₁, Guarded (s.chain t) args calls (.ok snapshots) ∧
        Moved Store.Evolves calls s s₁ ∧ out = .ok (.record ⟨s₁.instances.size⟩) ∧
        s' = s₁.withRecord t (storage (s.chain t) snapshots) := by
  show Computation.Runs _ (if args.length = s.constructorArity t then _ else _) s calls out s' ↔ _
  rw [hexact.constructorArity_eq, if_pos hlen]
  show Computation.Runs _ ((buildStorage (s.chain t) args).bind _) s calls out s' ↔ _
  have hbuild : ∀ {calls out s'},
      (buildStorage (s.chain t) args).Runs Store.Evolves s calls out s' ↔
        Moved Store.Evolves calls s s' ∧ ∃ result, Guarded (s.chain t) args calls result ∧
          out = result.map (storage (s.chain t)) := by
    intro calls out s'
    rw [runs_buildStorage_iff [] hlen, List.append_nil]
  rw [Computation.runs_bind_iff]
  constructor
  · rintro (⟨e, he, rfl⟩ | ⟨row, s₁, before, after, hrow, hafter, rfl⟩)
    · obtain ⟨hmoved, result, hresult, heq⟩ := hbuild.1 he
      cases result with
      | error e' =>
        cases heq
        exact .inl ⟨e, hresult, hmoved, rfl⟩
      | ok snapshots => cases heq
    · obtain ⟨hmoved, result, hresult, heq⟩ := hbuild.1 hrow
      cases result with
      | error e => cases heq
      | ok snapshots =>
        cases heq
        obtain ⟨made, hmade, rfl⟩ := Computation.runs_map_iff.1 hafter
        obtain ⟨rfl, hrun⟩ := Computation.runs_ofStoreM_iff.1 hmade
        cases (run_newInstance_storage hs ht hexact hlen hresult hmoved).symm.trans hrun
        rw [List.append_nil]
        exact .inr ⟨snapshots, s₁, hresult, hmoved, rfl, rfl⟩
  · rintro (⟨e, hresult, hmoved, rfl⟩ | ⟨snapshots, s₁, hresult, hmoved, rfl, rfl⟩)
    · exact .inl ⟨e, hbuild.2 ⟨hmoved, _, hresult, rfl⟩, rfl⟩
    · refine .inr ⟨storage (s.chain t) snapshots, s₁, calls, [],
        hbuild.2 ⟨hmoved, _, hresult, rfl⟩, ?_, (List.append_nil calls).symm⟩
      refine Computation.runs_map_iff.2 ⟨.ok ⟨s₁.instances.size⟩, ?_, rfl⟩
      refine Computation.runs_ofStoreM_iff.2 ⟨rfl, ?_⟩
      exact run_newInstance_storage hs ht hexact hlen hresult hmoved

/-- The field of a new instance is the element of its row that the table of offsets names. -/
lemma Store.read_withRecord (hs : s.LaidOut) {s₁ : Store} (hmoved : Moved Evolves calls s s₁)
    {t u : TypeId} (ht : t.index < s.types.size) (hexact : s.Exact t) {below above : List TypeId}
    (hchain : s.ancestry t = below ++ u :: above) {j : Nat} (hj : j < (s.type u).ownCount)
    {row : List Value} {v : Value} (hv : row[fieldCount (above.map s.type) + j]? = some v) :
    (s₁.withRecord t row).read ⟨s₁.instances.size⟩ u j = .ok v := by
  have hmem : u ∈ s.ancestry t := by
    rw [hchain]
    exact List.mem_append_right _ List.mem_cons_self
  have hu : u.index < s.types.size := Nat.lt_of_le_of_lt (hs.ordered.le_of_mem_ancestry hmem) ht
  have hu' : s.Exact u := hexact.of_mem_ancestry hs.ordered hmem
  have hlayout : ∀ v : TypeId, v.index < s.types.size →
      (s₁.type v).layout = (s.type v).layout := by
    rcases hmoved with ⟨-, rfl⟩ | ⟨-, he⟩
    · exact fun _ _ => rfl
    · exact he.layout
  have hrecord : (s₁.withRecord t row).record ⟨s₁.instances.size⟩ =
      ⟨t, (row.map Slot.raw).toArray⟩ := by
    simp [withRecord, record, Array.getD_eq_getD_getElem?]
  have hoffset : ((s₁.withRecord t row).typeOf ⟨s₁.instances.size⟩).offsetOf? u =
      some (fieldCount (above.map s.type)) := by
    rw [typeOf, hrecord]
    show (s₁.type t).offsetOf? u = _
    rw [RecordType.eq_of_layout (·.offsetOf? u) (fun _ => rfl) (hlayout t ht),
      hs.offsetOf?_of_mem ht hmem, hs.ownBase_eq hu' (hs.ordered.ancestry_of_eq_append hchain)]
  have hposition : ((s₁.withRecord t row).typeOf ⟨s₁.instances.size⟩).count
      (fieldCount (above.map s.type) + j) = fieldCount (above.map s.type) + j := by
    rw [typeOf, hrecord]
    show (s₁.type t).count _ = _
    rw [RecordType.eq_of_layout (·.count _) (fun _ => rfl) (hlayout t ht)]
    refine hexact.count_eq ?_
    rw [hu'.ownCount hs.ordered] at hj
    rw [chain, hchain, List.map_append, fieldCount_append, List.map_cons, fieldCount_cons]
    omega
  have hown : ((s₁.withRecord t row).type u).ownCount = (s.type u).ownCount :=
    RecordType.eq_of_layout (·.ownCount) (fun _ => rfl) (hlayout u hu)
  have hlocate : (s₁.withRecord t row).locate ⟨s₁.instances.size⟩ u j =
      .ok (fieldCount (above.map s.type) + j) :=
    locate_eq_ok_iff.2 ⟨_, hoffset, by rw [hown]; exact hj, hposition.symm⟩
  have hvalue : (s₁.withRecord t row).valueAt? ⟨s₁.instances.size⟩
      (fieldCount (above.map s.type) + j) = some v := by
    rw [valueAt?, hrecord]
    simp [hv, slotValue]
  rw [read_of_locate hlocate, hvalue]
  rfl

/-- An instance of a type with the arguments that were there after each guard, and auto values
behind them. -/
structure Store.Holds (s : Store) (t : TypeId) (snapshots : List (List Value)) (i : InstanceId)
    (s' : Store) : Prop where
  latest : i.index + 1 = s'.instances.size
  type : (s'.record i).type = t
  init : ∀ below u above, s.ancestry t = below ++ u :: above → ∀ j < (s.type u).initCount,
    ∃ args v, snapshots[below.length]? = some args ∧
      args[argumentCount (above.map s.type) + j]? = some v ∧ s'.read i u j = .ok v
  auto : ∀ below u above, s.ancestry t = below ++ u :: above → ∀ j,
    (s.type u).initCount ≤ j → j < (s.type u).ownCount →
      s'.read i u j = .ok (s.type u).autoValue

lemma Store.holds_withRecord (hs : s.LaidOut) {s₁ : Store} (hmoved : Moved Evolves calls s s₁)
    {t : TypeId} (ht : t.index < s.types.size) (hexact : s.Exact t) {args : List Value}
    (hlen : args.length = argumentCount (s.chain t)) {snapshots : List (List Value)}
    (hguarded : Guarded (s.chain t) args calls (.ok snapshots)) :
    s.Holds t snapshots ⟨s₁.instances.size⟩ (s₁.withRecord t (storage (s.chain t) snapshots)) := by
  have hle := Nat.le_of_eq hlen.symm
  have hsnapshots := hguarded.snapshots hle
  have hcount : ∀ below u above, s.ancestry t = below ++ u :: above →
      (s.type u).ownCount = (s.type u).initCount + (s.type u).autoCount := fun below u above h =>
    (hexact.of_mem_ancestry hs.ordered (h ▸ by simp)).ownCount hs.ordered
  -- what the row holds of a type of the chain
  have hrow : ∀ below u above, s.ancestry t = below ++ u :: above → ∀ j < (s.type u).ownCount,
      (storage (s.chain t) snapshots)[fieldCount (above.map s.type) + j]? =
        if j < (s.type u).initCount then snapshots[below.length]?.bind fun args =>
          args[argumentCount (above.map s.type) + j]?
        else some (s.type u).autoValue := by
    intro below u above hchain j hj
    have htypes : s.chain t = below.map s.type ++ s.type u :: above.map s.type := by
      rw [chain, hchain, List.map_append, List.map_cons]
    rw [htypes] at hsnapshots hle ⊢
    rw [hcount below u above hchain] at hj
    rw [getElem?_storage hsnapshots hle hj, List.length_map]
  refine ⟨by simp [withRecord], ?_, ?_, ?_⟩
  · simp [withRecord, record, Array.getD_eq_getD_getElem?]
  · intro below u above hchain j hj
    have hown : j < (s.type u).ownCount := by
      rw [hcount below u above hchain]
      exact Nat.lt_of_lt_of_le hj (Nat.le_add_right _ _)
    have hlevel : below.length < snapshots.length := by
      rw [hsnapshots.length, chain, hchain]
      simp
    have hlast := hsnapshots.length_of_mem _ (List.getElem_mem hlevel)
    have hfits : argumentCount (above.map s.type) + j < (snapshots[below.length]).length := by
      rw [hlast, hlen, chain, hchain]
      simp only [argumentCount, List.map_append, List.map_cons, List.sum_append, List.sum_cons]
      omega
    refine ⟨snapshots[below.length], (snapshots[below.length])[_], List.getElem?_eq_getElem hlevel,
      List.getElem?_eq_getElem hfits, read_withRecord hs hmoved ht hexact hchain hown ?_⟩
    rw [hrow below u above hchain j hown, if_pos hj, List.getElem?_eq_getElem hlevel]
    exact List.getElem?_eq_getElem hfits
  · intro below u above hchain j hinit hown
    refine read_withRecord hs hmoved ht hexact hchain hown ?_
    rw [hrow below u above hchain j hown, if_neg (Nat.not_lt.2 hinit)]

lemma Guarded.calls_ne_nil {types : List RecordType} {args : List Value} {e : Failure}
    (h : Guarded types args calls (.error e)) : calls ≠ [] := by
  generalize hout : (Except.error e : Except Failure (List (List Value))) = out at h
  induction h with
  | root => cases hout
  | @free _ _ _ _ out _ _ ih =>
    cases out with
    | error e' =>
      cases hout
      exact ih rfl
    | ok _ => cases hout
  | passed => exact List.cons_ne_nil _ _
  | stopped => exact List.cons_ne_nil _ _

/-- What a constructor does with some arguments, by the calls it makes: it refuses a wrong number
of arguments at once; it fails when and as a guard does; it completes when the guards pass, and
then it answers one instance with the arguments they left. -/
structure Store.Constructs (s : Store) (t : TypeId) (args : List Value)
    (calls : List Exchange) : Prop where
  refuses : args.length ≠ argumentCount (s.chain t) → ∀ out s',
    (construct t args).Runs Evolves s calls out s' ↔
      calls = [] ∧ out = .error (.condition (.arityMismatch (s.type t).constructorName.name
        (toString (argumentCount (s.chain t))) args.length)) ∧ s' = s
  fails : args.length = argumentCount (s.chain t) → ∀ e s',
    (construct t args).Runs Evolves s calls (.error e) s' ↔
      calls ≠ [] ∧ Guarded (s.chain t) args calls (.error e) ∧ s.Evolves s'
  completes : args.length = argumentCount (s.chain t) →
    ∀ snapshots, Guarded (s.chain t) args calls (.ok snapshots) →
      ∃ v s', (construct t args).Runs Evolves s calls (.ok v) s'
  holds : args.length = argumentCount (s.chain t) → ∀ v s',
    (construct t args).Runs Evolves s calls (.ok v) s' →
      ∃ snapshots i, Guarded (s.chain t) args calls (.ok snapshots) ∧ v = .record i ∧
        s.Holds t snapshots i s'

/-- A type with an auto field, and a guarded type below it. -/
def guardedChain : Store :=
  ((declare { name := ⟨"b"⟩, superType := some ⟨0⟩, initCount := 1, guard := some .void }).run
    ((declare { name := ⟨"a"⟩, initCount := 1, autoCount := 1, autoValue := .ofNat 7 }).run
      Store.initial).2).2

lemma built_guardedChain : guardedChain.Built := by
  refine .declare _ (.declare _ .initial ?_) ?_
  · intro u hu
    cases hu
  · intro u hu
    cases hu
    decide

/-- The guard of the lower type replaces both arguments. -/
lemma guarded_guardedChain :
    Guarded (guardedChain.chain ⟨1⟩) [.ofNat 1, .ofNat 2]
      [⟨.void, [.ofNat 1, .ofNat 2, .symbol ⟨"b"⟩], .ok [.ofNat 3, .ofNat 4]⟩]
      (.ok [[.ofNat 3, .ofNat 4], [.ofNat 3, .ofNat 4]]) := by
  have hroot : Guarded [guardedChain.type ⟨0⟩] [.ofNat 3, .ofNat 4] []
      (.ok [[.ofNat 3, .ofNat 4]]) := @Guarded.free _ _ _ _ (.ok []) rfl .root
  exact @Guarded.passed (guardedChain.type ⟨1⟩) [guardedChain.type ⟨0⟩] [.ofNat 1, .ofNat 2]
    [.ofNat 3, .ofNat 4] .void (.ok [.ofNat 3, .ofNat 4]) [] (.ok [[.ofNat 3, .ofNat 4]]) rfl rfl
    hroot

/-- A guarded type on top of a chain whose init fields wrap around. -/
def guardedWrap : Store :=
  ((declare { name := ⟨"tip"⟩, superType := some ⟨1⟩, initCount := 1, guard := some .void }).run
    Store.wrappingChain).2

lemma built_guardedWrap : guardedWrap.Built :=
  .declare _ Store.built_wrappingChain fun u hu => by
    cases hu
    decide

end Records
