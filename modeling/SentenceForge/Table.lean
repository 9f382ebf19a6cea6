import Std.Data.TreeMap.Lemmas

/-!
# Tables in the order of insertion

A table has keys with values, each key once, and lists them in the order
in which the keys were first inserted. `put` overwrites the value of a key
that is there and leaves its position; it never reorders.

Order and look-up are kept apart. The values are in a search tree by key,
so that a look-up in a large table is not a walk through it, and the keys
are in a list of their own that is only ever extended. What ties the two
is a field: the keys of the list are those of the tree, once each. The
laws below speak of `get?`, `has`, `keys` and `toList`, and nobody needs
to look further.
-/

namespace SentenceForge

/-- **Keys with values in the order of insertion.** -/
structure Table (κ ν : Type) [Ord κ] where
  /-- The keys, the last one first. -/
  order : List κ
  /-- The values by key. -/
  values : Std.TreeMap κ ν
  /-- The keys are those with a value. -/
  mem_order : ∀ k, k ∈ order ↔ k ∈ values
  /-- No key is there twice. -/
  nodup : order.Nodup

namespace Table

variable {κ ν μ : Type} [Ord κ] [Std.TransOrd κ] [Std.LawfulEqOrd κ]

/-- The table without keys. -/
def empty : Table κ ν := ⟨[], ∅, by simp, List.nodup_nil⟩

/-- The value of a key. -/
def get? (t : Table κ ν) (k : κ) : Option ν := t.values[k]?

/-- Whether a key is in the table. -/
def has (t : Table κ ν) (k : κ) : Bool := t.values.contains k

/-- The keys in order. -/
def keys (t : Table κ ν) : List κ := t.order.reverse

/-- The number of keys. -/
def size (t : Table κ ν) : Nat := t.order.length

/-- **The keys with their values, in order.** -/
def toList (t : Table κ ν) : List (κ × ν) :=
  t.keys.filterMap fun k => (t.get? k).map (k, ·)

/-- **The table with a key set to a value**: in its place if it is there,
at the end otherwise. -/
def put (t : Table κ ν) (k : κ) (v : ν) : Table κ ν :=
  if h : k ∈ t.values then
    ⟨t.order, t.values.insert k v, fun k' => by
      rw [t.mem_order, Std.TreeMap.mem_insert, Std.compare_eq_iff_eq]
      constructor
      · exact .inr
      · rintro (rfl | h')
        · exact h
        · exact h', t.nodup⟩
  else
    ⟨k :: t.order, t.values.insert k v, fun k' => by
      rw [List.mem_cons, t.mem_order, Std.TreeMap.mem_insert,
        Std.compare_eq_iff_eq, eq_comm],
      List.nodup_cons.2 ⟨fun m => h ((t.mem_order k).1 m), t.nodup⟩⟩

/-- The table with every value changed. -/
def mapValues (f : ν → μ) (t : Table κ ν) : Table κ μ :=
  ⟨t.order, t.values.map fun _ v => f v, fun k => by
    rw [t.mem_order, Std.TreeMap.mem_map], t.nodup⟩

/-! ## Look-up -/

omit [Std.LawfulEqOrd κ] in
/-- Nothing is in the empty table. -/
@[simp] theorem get?_empty (k : κ) : (empty : Table κ ν).get? k = none := by
  simp [empty, get?]

omit [Std.LawfulEqOrd κ] in
/-- A key is there if it has a value. -/
theorem has_eq_isSome (t : Table κ ν) (k : κ) :
    t.has k = (t.get? k).isSome := by
  rw [has, get?, Std.TreeMap.contains_eq_isSome_getElem?]

/-- Putting a key leaves the values of a tree with it. -/
theorem values_put (t : Table κ ν) (k : κ) (v : ν) :
    (t.put k v).values = t.values.insert k v := by
  unfold put
  split <;> rfl

/-- **A key reads what was put there.** -/
@[simp] theorem get?_put_self (t : Table κ ν) (k : κ) (v : ν) :
    (t.put k v).get? k = some v := by
  rw [get?, values_put, Std.TreeMap.getElem?_insert_self]

/-- **Other keys keep their values.** -/
theorem get?_put_of_ne (t : Table κ ν) {k k' : κ} (v : ν) (h : k ≠ k') :
    (t.put k v).get? k' = t.get? k' := by
  rw [get?, get?, values_put, Std.TreeMap.getElem?_insert,
    if_neg fun e => h (Std.compare_eq_iff_eq.1 e)]

/-- A key is there once it is put, and otherwise if it was there
before. -/
theorem has_put (t : Table κ ν) [DecidableEq κ] (k k' : κ) (v : ν) :
    (t.put k v).has k' = (decide (k = k') || t.has k') := by
  by_cases h : k = k'
  · subst h
    simp [has_eq_isSome]
  · simp [has_eq_isSome, get?_put_of_ne _ _ h, h]

/-- Changing the values changes what is read. -/
@[simp] theorem get?_mapValues (f : ν → μ) (t : Table κ ν) (k : κ) :
    (t.mapValues f).get? k = (t.get? k).map f := by
  rw [get?, get?, mapValues, Std.TreeMap.getElem?_map]

/-! ## Order -/

omit [Std.TransOrd κ] [Std.LawfulEqOrd κ] in
/-- The keys are the keys that are there. -/
@[simp] theorem mem_keys (t : Table κ ν) (k : κ) :
    k ∈ t.keys ↔ t.has k = true := by
  rw [keys, List.mem_reverse, t.mem_order, has,
    Std.TreeMap.contains_iff_mem]

omit [Std.TransOrd κ] [Std.LawfulEqOrd κ] in
/-- No key is listed twice. -/
theorem nodup_keys (t : Table κ ν) : t.keys.Nodup :=
  List.pairwise_reverse.2 (t.nodup.imp Ne.symm)

/-- **A key that is there leaves the keys as they are.** -/
theorem keys_put_of_has {t : Table κ ν} {k : κ} (v : ν)
    (h : t.has k = true) : (t.put k v).keys = t.keys := by
  rw [put, dif_pos (Std.TreeMap.contains_iff_mem.1 h)]
  rfl

/-- **A new key comes last.** -/
theorem keys_put_of_not_has {t : Table κ ν} {k : κ} (v : ν)
    (h : t.has k = false) : (t.put k v).keys = t.keys ++ [k] := by
  have hk : k ∉ t.values := fun m => by
    simp [has, Std.TreeMap.contains_iff_mem.2 m] at h
  rw [put, dif_neg hk]
  simp [keys]

omit [Std.LawfulEqOrd κ] in
/-- A list of keys that all have values, each with its value. -/
theorem map_fst_filterMap_get? {t : Table κ ν} {ks : List κ}
    (h : ∀ k ∈ ks, t.has k = true) :
    (ks.filterMap fun k => (t.get? k).map (k, ·)).map Prod.fst = ks := by
  induction ks with
  | nil => rfl
  | cons k ks ih =>
    have hk := h k List.mem_cons_self
    rw [has_eq_isSome, Option.isSome_iff_exists] at hk
    obtain ⟨v, hv⟩ := hk
    simp [hv, ih fun k' m => h k' (List.mem_cons_of_mem k m)]

omit [Std.LawfulEqOrd κ] in
/-- **The list has the keys in order.** -/
@[simp] theorem map_fst_toList (t : Table κ ν) :
    t.toList.map Prod.fst = t.keys :=
  map_fst_filterMap_get? fun k m => (mem_keys t k).1 m

omit [Std.LawfulEqOrd κ] in
/-- **The list has what is read.** -/
theorem mem_toList (t : Table κ ν) (k : κ) (v : ν) :
    (k, v) ∈ t.toList ↔ t.get? k = some v := by
  rw [toList, List.mem_filterMap]
  constructor
  · rintro ⟨k', _, h⟩
    obtain ⟨w, hw, he⟩ := Option.map_eq_some_iff.1 h
    injection he with h₁ h₂
    exact h₁ ▸ h₂ ▸ hw
  · intro h
    refine ⟨k, (mem_keys t k).2 ?_, by simp [h]⟩
    rw [has_eq_isSome, h, Option.isSome_some]

/-! ## Groups -/

/-- The table with a value put in front of those of a key. -/
def cons (t : Table κ (List ν)) (k : κ) (v : ν) : Table κ (List ν) :=
  t.put k (v :: (t.get? k).getD [])

/-- **The values of a list under the keys that a function gives them**,
keys in order of first occurrence and the values of a key in order. -/
def group {α : Type} (key : α → κ) (value : α → ν) (xs : List α) :
    Table κ (List ν) :=
  (xs.foldl (fun t x => t.cons (key x) (value x)) empty).mapValues
    List.reverse

variable [DecidableEq κ]

/-- The values of a key after one is put in front. -/
theorem getD_get?_cons (t : Table κ (List ν)) (k k' : κ) (v : ν) :
    ((t.cons k v).get? k').getD []
      = (if k = k' then [v] else []) ++ (t.get? k').getD [] := by
  by_cases h : k = k'
  · subst h
    simp [cons]
  · simp [cons, get?_put_of_ne _ _ h, h]

/-- The values of a key in a table to which the values of a list were
put in front, one after the other. -/
theorem getD_get?_foldl_cons {α : Type} (key : α → κ) (value : α → ν)
    (xs : List α) (t : Table κ (List ν)) (k : κ) :
    ((xs.foldl (fun t x => t.cons (key x) (value x)) t).get? k).getD []
      = ((xs.filter (key · = k)).map value).reverse
        ++ (t.get? k).getD [] := by
  induction xs generalizing t with
  | nil => simp
  | cons x xs ih =>
    rw [List.foldl_cons, ih, getD_get?_cons]
    by_cases h : key x = k <;> simp [h]

/-- **A group is a filter**: the values of a key are those of the elements
that have it, in order. -/
theorem getD_get?_group {α : Type} (key : α → κ) (value : α → ν)
    (xs : List α) (k : κ) :
    ((group key value xs).get? k).getD []
      = (xs.filter (key · = k)).map value := by
  have h := getD_get?_foldl_cons key value xs empty k
  rw [get?_empty, Option.getD_none, List.append_nil] at h
  rw [group, get?_mapValues, ← List.reverse_inj, ← h]
  cases (xs.foldl (fun t x => t.cons (key x) (value x)) empty).get? k with
  | none => rfl
  | some vs => simp

/-- **A group is there if an element has its key.** -/
theorem has_group {α : Type} (key : α → κ) (value : α → ν) (xs : List α)
    (k : κ) : (group key value xs).has k = xs.any (key · = k) := by
  suffices h : ∀ t : Table κ (List ν),
      (xs.foldl (fun t x => t.cons (key x) (value x)) t).has k
        = (t.has k || xs.any (key · = k)) by
    rw [has_eq_isSome, group, get?_mapValues, Option.isSome_map,
      ← has_eq_isSome, h, has_eq_isSome, get?_empty]
    rfl
  induction xs with
  | nil => simp
  | cons x xs ih =>
    intro t
    rw [List.foldl_cons, ih, cons, has_put]
    simp [Bool.or_assoc, Bool.or_left_comm]

end Table

end SentenceForge
