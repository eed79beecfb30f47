/-!
# Finite maps from text

Fields, records, tables and keyspaces are all maps whose keys are text listed in
code point order. A map is its list of pairs in strictly increasing key order,
so two maps with the same look-ups are equal and printing one needs no sorting.

The main statements give the look-up after each operation and extensionality.
-/

namespace Leasehold

/-- A finite map from text, as its pairs in increasing key order. -/
structure TextMap (α : Type) where
  toList : List (String × α)
  sorted : toList.Pairwise (fun a b => a.1 < b.1) := by simp

namespace TextMap

variable {α β : Type}

instance [DecidableEq α] : DecidableEq (TextMap α)
  | ⟨a, _⟩, ⟨b, _⟩ =>
    if same : a = b then isTrue (by subst same; rfl)
    else isFalse fun equal => same (congrArg toList equal)

instance : Inhabited (TextMap α) :=
  ⟨{ toList := [] }⟩

/-- The map without keys. -/
def empty : TextMap α where
  toList := []

instance : EmptyCollection (TextMap α) :=
  ⟨empty⟩

/-- The value listed under `key` in a list of pairs. -/
def lookup (key : String) : List (String × α) → Option α
  | [] => none
  | (k, v) :: rest => if k = key then some v else lookup key rest

/-- The value at `key`. -/
def get? (map : TextMap α) (key : String) : Option α :=
  lookup key map.toList

/-- Whether `key` has a value. -/
def contains (map : TextMap α) (key : String) : Bool :=
  (map.get? key).isSome

/-- The keys in increasing order. -/
def keys (map : TextMap α) : List String :=
  map.toList.map Prod.fst

/-- The number of keys. -/
def size (map : TextMap α) : Nat :=
  map.toList.length

/-- Puts a pair where it belongs in an ordered list, in place of the pair that
already has its key. -/
def insertPair (key : String) (value : α) : List (String × α) → List (String × α)
  | [] => [(key, value)]
  | (k, v) :: rest =>
    if key < k then (key, value) :: (k, v) :: rest
    else if k < key then (k, v) :: insertPair key value rest
    else (key, value) :: rest

theorem fst_mem_of_mem_insertPair {key : String} {value : α} {pairs : List (String × α)}
    {pair : String × α} (member : pair ∈ insertPair key value pairs) :
    pair.1 = key ∨ pair ∈ pairs := by
  induction pairs with
  | nil => simp_all [insertPair]
  | cons head rest ih =>
    obtain ⟨k, v⟩ := head
    simp only [insertPair] at member
    split at member
    · rcases List.mem_cons.mp member with rfl | member
      · exact .inl rfl
      · exact .inr member
    · split at member
      · rcases List.mem_cons.mp member with rfl | member
        · exact .inr List.mem_cons_self
        · exact (ih member).imp_right (List.mem_cons_of_mem _)
      · rcases List.mem_cons.mp member with rfl | member
        · exact .inl rfl
        · exact .inr (List.mem_cons_of_mem _ member)

theorem eq_of_not_lt {a b : String} (notLess : ¬a < b) (notGreater : ¬b < a) : a = b :=
  String.le_antisymm (String.not_lt.1 notGreater) (String.not_lt.1 notLess)

theorem sorted_insertPair (key : String) (value : α) {pairs : List (String × α)}
    (sorted : pairs.Pairwise (fun a b => a.1 < b.1)) :
    (insertPair key value pairs).Pairwise (fun a b => a.1 < b.1) := by
  induction pairs with
  | nil => simp [insertPair]
  | cons head rest ih =>
    obtain ⟨k, v⟩ := head
    rcases List.pairwise_cons.mp sorted with ⟨below, sortedRest⟩
    simp only [insertPair]
    split
    next less =>
      refine List.pairwise_cons.mpr ⟨fun pair member => ?_, sorted⟩
      rcases List.mem_cons.mp member with rfl | member
      · exact less
      · exact String.lt_trans less (below pair member)
    next notLess =>
      split
      next greater =>
        refine List.pairwise_cons.mpr ⟨fun pair member => ?_, ih sortedRest⟩
        rcases fst_mem_of_mem_insertPair member with same | member
        · exact same ▸ greater
        · exact below pair member
      next notGreater =>
        obtain rfl := eq_of_not_lt notLess notGreater
        exact List.pairwise_cons.mpr ⟨below, sortedRest⟩

/-- The map with `value` at `key`, whatever was there before. -/
def insert (map : TextMap α) (key : String) (value : α) : TextMap α where
  toList := insertPair key value map.toList
  sorted := sorted_insertPair key value map.sorted

/-- The pairs that a test accepts. -/
def filter (map : TextMap α) (keep : String → α → Bool) : TextMap α where
  toList := map.toList.filter fun pair => keep pair.1 pair.2
  sorted := map.sorted.filter _

/-- The map without `key`. -/
def erase (map : TextMap α) (key : String) : TextMap α :=
  map.filter fun k _ => k != key

/-- The map with every value replaced by its image. -/
def map (f : α → β) (m : TextMap α) : TextMap β where
  toList := m.toList.map fun pair => (pair.1, f pair.2)
  sorted := by
    rw [List.pairwise_map]
    exact m.sorted

/-- Inserts pairs from first to last, so of two with one key the last stays. -/
def insertMany (map : TextMap α) (pairs : List (String × α)) : TextMap α :=
  pairs.foldl (fun acc pair => acc.insert pair.1 pair.2) map

/-- The map of a list of pairs; of two with one key the last stays. -/
def ofList (pairs : List (String × α)) : TextMap α :=
  empty.insertMany pairs

/-- The pairs of `upper`, and those of `lower` whose key is not in it. -/
def overlay (lower upper : TextMap α) : TextMap α :=
  lower.insertMany upper.toList

/-! ## Look-up -/

@[simp]
theorem get?_empty (key : String) : (empty : TextMap α).get? key = none :=
  rfl

theorem lookup_eq_none_of_lt {key : String} {pairs : List (String × α)}
    (above : ∀ pair ∈ pairs, key < pair.1) : lookup key pairs = none := by
  induction pairs with
  | nil => rfl
  | cons head rest ih =>
    have distinct : head.1 ≠ key := fun same =>
      String.lt_irrefl key (same ▸ above head List.mem_cons_self)
    rw [lookup, if_neg distinct]
    exact ih fun pair member => above pair (List.mem_cons_of_mem _ member)

theorem lookup_insertPair (key : String) (value : α) {pairs : List (String × α)}
    (sorted : pairs.Pairwise (fun a b => a.1 < b.1)) (k : String) :
    lookup k (insertPair key value pairs) = if key = k then some value else lookup k pairs := by
  induction pairs with
  | nil => rfl
  | cons head rest ih =>
    obtain ⟨k', v⟩ := head
    rcases List.pairwise_cons.mp sorted with ⟨below, sortedRest⟩
    simp only [insertPair]
    split
    next less => rfl
    next notLess =>
      split
      next greater =>
        rw [lookup, ih sortedRest, lookup]
        by_cases first : k' = k
        · subst first
          rw [if_pos rfl, if_pos rfl, if_neg (String.ne_of_lt greater).symm]
        · rw [if_neg first, if_neg first]
      next notGreater =>
        obtain rfl := eq_of_not_lt notLess notGreater
        rw [lookup, lookup]
        by_cases same : key = k
        · rw [if_pos same, if_pos same]
        · rw [if_neg same, if_neg same, if_neg same]

@[simp]
theorem get?_insert (map : TextMap α) (key : String) (value : α) (k : String) :
    (map.insert key value).get? k = if key = k then some value else map.get? k :=
  lookup_insertPair key value map.sorted k

theorem lookup_filter (keep : String → α → Bool) {pairs : List (String × α)}
    (sorted : pairs.Pairwise (fun a b => a.1 < b.1)) (k : String) :
    lookup k (pairs.filter fun pair => keep pair.1 pair.2) =
      (lookup k pairs).filter (keep k) := by
  induction pairs with
  | nil => rfl
  | cons head rest ih =>
    obtain ⟨k', v⟩ := head
    rcases List.pairwise_cons.mp sorted with ⟨below, sortedRest⟩
    by_cases first : k' = k
    · subst first
      by_cases kept : keep k' v
      · simp [kept, lookup, Option.filter]
      · have absent : lookup k' (rest.filter fun pair => keep pair.1 pair.2) = none :=
          lookup_eq_none_of_lt fun pair member => below pair (List.mem_filter.1 member).1
        simp [kept, lookup, absent, Option.filter]
    · by_cases kept : keep k' v
      · simp [kept, lookup, first, ih sortedRest]
      · simp [kept, lookup, first, ih sortedRest]

@[simp]
theorem get?_filter (map : TextMap α) (keep : String → α → Bool) (k : String) :
    (map.filter keep).get? k = (map.get? k).filter (keep k) :=
  lookup_filter keep map.sorted k

@[simp]
theorem get?_erase (map : TextMap α) (key k : String) :
    (map.erase key).get? k = if k = key then none else map.get? k := by
  rw [erase, get?_filter]
  by_cases same : k = key
  · cases map.get? k <;> simp [same, Option.filter]
  · cases map.get? k <;> simp [same, Option.filter]

theorem lookup_eq_some_iff {pairs : List (String × α)}
    (sorted : pairs.Pairwise (fun a b => a.1 < b.1)) (key : String) (value : α) :
    lookup key pairs = some value ↔ (key, value) ∈ pairs := by
  induction pairs with
  | nil => simp [lookup]
  | cons head rest ih =>
    obtain ⟨k, v⟩ := head
    rcases List.pairwise_cons.mp sorted with ⟨below, sortedRest⟩
    rw [lookup]
    by_cases same : k = key
    · subst same
      rw [if_pos rfl, List.mem_cons]
      constructor
      · rintro ⟨⟩
        exact .inl rfl
      · rintro (equal | member)
        · rw [(Prod.mk.inj equal).2]
        · exact absurd (below _ member) (String.lt_irrefl k)
    · rw [if_neg same, ih sortedRest, List.mem_cons]
      exact ⟨.inr, fun either => either.resolve_left fun equal => same (Prod.mk.inj equal).1.symm⟩

theorem get?_eq_some_iff (map : TextMap α) (key : String) (value : α) :
    map.get? key = some value ↔ (key, value) ∈ map.toList :=
  lookup_eq_some_iff map.sorted key value

/-- Maps with the same look-ups are equal. -/
theorem ext {a b : TextMap α} (same : ∀ key, a.get? key = b.get? key) : a = b := by
  obtain ⟨as, sortedA⟩ := a
  obtain ⟨bs, sortedB⟩ := b
  have members : ∀ pair, pair ∈ as ↔ pair ∈ bs := fun (key, value) => by
    rw [← lookup_eq_some_iff sortedA, ← lookup_eq_some_iff sortedB]
    exact iff_of_eq (congrArg (· = some value) (same key))
  have equal : as = bs := by
    clear same
    induction as generalizing bs with
    | nil =>
      cases bs with
      | nil => rfl
      | cons head rest => exact absurd ((members head).mpr List.mem_cons_self) (List.not_mem_nil)
    | cons a as ih =>
      cases bs with
      | nil => exact absurd ((members a).mp List.mem_cons_self) (List.not_mem_nil)
      | cons b bs =>
        rcases List.pairwise_cons.mp sortedA with ⟨belowA, sortedAs⟩
        rcases List.pairwise_cons.mp sortedB with ⟨belowB, sortedBs⟩
        have heads : a = b := by
          rcases List.mem_cons.mp ((members a).mp List.mem_cons_self) with same | inB
          · exact same
          · rcases List.mem_cons.mp ((members b).mpr List.mem_cons_self) with same | inA
            · exact same.symm
            · exact absurd (belowB a inB) (String.lt_asymm (belowA b inA))
        subst heads
        refine congrArg _ (ih sortedAs bs sortedBs fun pair => ?_)
        constructor
        · intro member
          refine (List.mem_cons.mp ((members pair).mp (List.mem_cons_of_mem _ member))).resolve_left
            fun same => ?_
          exact String.lt_irrefl a.1 (same ▸ belowA pair member)
        · intro member
          refine (List.mem_cons.mp ((members pair).mpr (List.mem_cons_of_mem _ member))).resolve_left
            fun same => ?_
          exact String.lt_irrefl a.1 (same ▸ belowB pair member)
  subst equal
  rfl

@[simp]
theorem get?_map (f : α → β) (m : TextMap α) (key : String) :
    (m.map f).get? key = (m.get? key).map f := by
  obtain ⟨pairs, sorted⟩ := m
  show lookup key (pairs.map fun pair => (pair.1, f pair.2)) = (lookup key pairs).map f
  clear sorted
  induction pairs with
  | nil => rfl
  | cons head rest ih =>
    rw [List.map_cons, lookup, lookup, ih]
    by_cases same : head.1 = key
    · rw [if_pos same, if_pos same]
      rfl
    · rw [if_neg same, if_neg same]

end TextMap

end Leasehold
